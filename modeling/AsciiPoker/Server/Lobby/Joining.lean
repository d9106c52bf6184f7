import AsciiPoker.Server.Lobby.Consistency

/-
  What a join that fails leaves behind.

  `join_room` looks at the room that is asked for only after
  the player has left the room he was in.

  Main declarations:
    * `Lobby.Unchanged`
    * `Lobby.enterRoom_error`
    * `Lobby.Run.failedJoin_unchanged_iff`
    * `Lobby.failedJoin_leaves`
-/

namespace Poker

namespace Server

open Protocol

namespace Lobby

------------------------------------------------------------
-- Joins That Fail
------------------------------------------------------------

/-
  The rooms with their players, hosts and sessions, the
  places of the players and the stored accounts are as they
  were.
-/
structure Unchanged
    (lobby new : Lobby) : Prop where
  rooms : new.rooms = lobby.rooms
  heap : new.heap = lobby.heap
  playerRooms : new.playerRooms = lobby.playerRooms
  repository : new.world.repository = lobby.world.repository

variable {lobby new : Lobby}
variable {roomId : UInt64}
variable {player : ConnId}
variable {draws : Draws}
variable {error : ErrorCode}

theorem Unchanged.refl
    (lobby : Lobby) :
    lobby.Unchanged lobby :=
  ⟨rfl, rfl, rfl, rfl⟩

/- A player turned away from a room has changed nothing. -/
theorem enterRoom_error
    {shuffles : List Shuffle}
    (hTidy : lobby.Tidy)
    (hFree : lobby.playerRooms.find player = none)
    (hOk : lobby.enterRoom roomId player shuffles =
      .ok (some error, new)) :
    new = lobby := by
  unfold enterRoom at hOk
  rcases Except.bind_eq_ok.mp hOk with ⟨found, hGet, hRest⟩
  cases found with
  | none =>
      cases hRest
      rfl
  | some ptr =>
      rcases Except.bind_eq_ok.mp hRest with
        ⟨room, hRoom, hChecks⟩
      split at hChecks
      · cases hChecks
        rfl
      · split at hChecks
        · cases hChecks
          rfl
        · -- Whoever passes both checks is added.
          rename_i hOpen hRoomLeft
          exfalso
          have hHolds : lobby.Holds ptr room :=
            ⟨mem_of_findRoom hGet, require_eq_ok.mp hRoom⟩
          rcases Except.bind_eq_ok.mp hChecks with
            ⟨⟨added, after, world⟩, hAdd, hEnter⟩
          have hNew : player ∉ room.players := by
            rw [← hTidy.find_iff hHolds, hFree]
            simp
          rcases Room.addPlayer_of_ok
              (hTidy.of_holds hHolds).1 hNew hAdd with
            ⟨_, _, _, hStarted | hFull⟩ | ⟨rfl, _⟩
          · exact hOpen hStarted
          · exact hRoomLeft hFull
          · rcases Except.bind_eq_ok.mp hEnter with
              ⟨told, _, hEnd⟩
            cases hEnd

/- A failed join past the bankroll check has left the room. -/
theorem joinRoom_error
    (hTidy : lobby.Tidy)
    (hBankroll : lobby.checkPlayerBankroll player = none)
    (hOk : lobby.joinRoom roomId player draws =
      .ok (some error, new)) :
    lobby.leavePresentRoom player draws.leaving = .ok new := by
  unfold joinRoom at hOk
  rw [hBankroll] at hOk
  rcases Except.bind_eq_ok.mp hOk with ⟨same, _, hRest⟩
  cases same with
  | true => cases hRest
  | false =>
      rcases Except.bind_eq_ok.mp hRest with
        ⟨left, hLeave, hEnter⟩
      rcases hTidy.leavePresentRoom hLeave with
        ⟨hLeft, hFree⟩
      rw [enterRoom_error hLeft hFree hEnter]
      exact hLeave

/-
  A failed join changes nothing exactly when the player's
  bankroll is too small or he was in no room.
-/
theorem Run.failedJoin_unchanged_iff
    {world : World}
    {registry : Option (List ConnId)}
    {trace : List (Lobby × Call)}
    (run : Run world registry trace lobby)
    (hJoin : lobby.joinRoom roomId player draws =
      .ok (some error, new)) :
    lobby.Unchanged new ↔
      lobby.checkPlayerBankroll player ≠ none ∨
        lobby.findRoomByPlayer player = none := by
  have hTidy := run.tidy
  by_cases hBankroll :
      lobby.checkPlayerBankroll player = none
  · have hLeave := joinRoom_error hTidy hBankroll hJoin
    constructor
    · intro hSame
      right
      unfold findRoomByPlayer
      rw [← hSame.playerRooms]
      exact (hTidy.leavePresentRoom hLeave).2
    · rintro (hPoor | hFree)
      · exact absurd hBankroll hPoor
      · unfold findRoomByPlayer at hFree
        unfold leavePresentRoom at hLeave
        rw [hFree] at hLeave
        cases hLeave
        exact Unchanged.refl lobby
  · refine ⟨fun _ => Or.inl hBankroll, fun _ => ?_⟩
    unfold joinRoom at hJoin
    split at hJoin
    · cases hJoin
      exact Unchanged.refl lobby
    · rename_i hNone
      exact absurd hNone hBankroll

------------------------------------------------------------
-- A Player in a Hand
------------------------------------------------------------

/-
  Connection 2 asks for a room that does not exist, and the
  two players at their table are not disturbed.
-/
theorem outsider_unchanged :
    ∃ trace lobby new,
      Run plainWorld (some [0, 1, 2]) trace lobby ∧
        lobby.findRoomByPlayer 0 = some 0 ∧
        lobby.joinRoom 7 2 {} =
          .ok (some .joinFailed, new) ∧
        lobby.Unchanged new := by
  have hPasses : Transition.passes step
      (opening plainWorld (some [0, 1, 2])) fullTable
      (fun _ lobby =>
        decide (lobby.findRoomByPlayer 0 = some 0 ∧
          lobby.findRoomByPlayer 2 = none) &&
        match lobby.joinRoom 7 2 {} with
        | .ok (some code, _) => decide (code = .joinFailed)
        | .ok (none, _) => false
        | .error _ => false) = true := by
    decide +kernel
  rcases Transition.exists_run_of_passes hPasses with
    ⟨trace, lobby, run, hTest⟩
  rw [Bool.and_eq_true, decide_eq_true_eq] at hTest
  rcases hTest with ⟨⟨hSits, hFree⟩, hJoin⟩
  split at hJoin
  · rename_i code new hResult
    have hCode : code = .joinFailed := of_decide_eq_true hJoin
    rw [hCode] at hResult
    exact ⟨trace, lobby, new, run, hSits, hResult,
      (Run.failedJoin_unchanged_iff run hResult).mpr
        (Or.inr hFree)⟩
  · cases hJoin
  · cases hJoin

/-
  Connection 0 plays a hand at a full table and asks for a
  room that does not exist.  He is told so, and has left his
  room and his hand.
-/
theorem failedJoin_leaves :
    ¬ ∀ world registry trace lobby roomId player draws error
        new,
      Run world registry trace lobby →
        lobby.joinRoom roomId player draws =
          .ok (some error, new) →
        lobby.Unchanged new := by
  intro hAll
  have hPasses : Transition.passes step
      (opening plainWorld (some [0, 1])) fullTable
      (fun _ lobby =>
        match lobby.joinRoom 7 0
            { leaving := [.unshuffled, .unshuffled] } with
        | .ok (some _, new) =>
            decide (lobby.playerRooms.find 0 = some 0 ∧
              new.playerRooms.find 0 = none)
        | .ok (none, _) => false
        | .error _ => false) = true := by
    decide +kernel
  rcases Transition.exists_run_of_passes hPasses with
    ⟨trace, lobby, run, hTest⟩
  split at hTest
  · rename_i code new hResult
    rw [decide_eq_true_eq] at hTest
    have hSame := hAll _ _ _ _ _ _ _ _ _ run hResult
    rw [hSame.playerRooms, hTest.1] at hTest
    cases hTest.2
  · cases hTest
  · cases hTest

end Lobby

end Server

end Poker
