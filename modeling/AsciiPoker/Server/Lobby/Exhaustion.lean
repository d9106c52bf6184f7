import AsciiPoker.Server.Lobby.Progress

/-
  When a call of the lobby runs out of cards.

  What a call leaves to run is run to its end, and each of
  its steps may deal.  A deal for which the deck is short
  throws, and nothing else that a call does throws anything.

  Main declarations:
    * `Throws`
    * `Config.Exhausts`, `Table.Run.throws_finish`
    * `Room.PlayExhausts`, `Room.StartExhausts`
    * `Lobby.Exhausts`, `Lobby.Tidy.throws_step`
-/

namespace Poker

namespace Server

open Protocol

------------------------------------------------------------
-- Exceptions
------------------------------------------------------------

/- The call ends in an exception of the program. -/
def Throws
    {α : Type}
    (call : Except Exn α) : Prop :=
  ∃ exn, exn ≠ .notEnabled ∧ call = .error exn

section Throws

variable {α β : Type}

@[simp] theorem not_throws_ok
    (a : α) :
    ¬ Throws (.ok a) := by
  rintro ⟨exn, _, hError⟩
  cases hError

@[simp] theorem throws_error
    {exn : Exn} :
    Throws (.error exn : Except Exn α) ↔
      exn ≠ .notEnabled := by
  constructor
  · rintro ⟨other, hOther, hError⟩
    cases hError
    exact hOther
  · exact fun hReal => ⟨exn, hReal, rfl⟩

/- A sequence throws in its first part or in the rest. -/
theorem throws_bind
    {x : Except Exn α}
    {f : α → Except Exn β} :
    Throws (x >>= f) ↔
      Throws x ∨ ∃ a, x = .ok a ∧ Throws (f a) := by
  cases x with
  | ok a => simp
  | error exn =>
      change Throws (.error exn) ↔ _
      simp

/- What cannot throw in the rest throws first, if at all. -/
theorem throws_bind_of_rest
    {x : Except Exn α}
    {f : α → Except Exn β}
    (hRest : ∀ a, x = .ok a → ¬ Throws (f a)) :
    Throws (x >>= f) ↔ Throws x := by
  rw [throws_bind, or_iff_left]
  rintro ⟨a, hOk, hThrows⟩
  exact hRest a hOk hThrows

/- The result is changed, not whether there is one. -/
theorem throws_map
    {x : Except Exn α}
    {f : α → β} :
    Throws (x.map f) ↔ Throws x := by
  cases x with
  | ok a =>
      change Throws (.ok (f a)) ↔ _
      simp
  | error exn =>
      change Throws (.error exn) ↔ _
      simp

/- To lack a shuffle is no exception. -/
theorem not_throws_of_failsOnly
    {x : Except Exn α}
    (hFails : x.FailsOnly fun exn => exn = .notEnabled) :
    ¬ Throws x := by
  rintro ⟨exn, hReal, hError⟩
  exact hReal (hFails exn hError)

end Throws

------------------------------------------------------------
-- Games
------------------------------------------------------------

/-
  What is left to run comes to a deal for which the deck is
  short, before the shuffles are used up.
-/
inductive Config.Exhausts : Config → List Shuffle → Prop
  | here
      {c : Config}
      {shuffle : Shuffle}
      {rest : List Shuffle}
      (hShort : c.DeckShort) :
      Exhausts c (shuffle :: rest)
  | later
      {c d : Config}
      {shuffle : Shuffle}
      {rest : List Shuffle}
      (hOk : c.step (.proceed shuffle) = .ok d)
      (hLater : d.Exhausts rest) :
      Exhausts c (shuffle :: rest)

/- There is nothing to run that could run out of cards. -/
theorem Config.not_exhausts_of_done
    {c : Config}
    {shuffles : List Shuffle}
    (hDone : c.pending = .done) :
    ¬ c.Exhausts shuffles := by
  intro hExhausts
  cases hExhausts with
  | here hShort =>
      rcases hShort with ⟨hStart, _⟩ | ⟨hNext, _⟩
      · rw [hDone] at hStart
        cases hStart
      · rw [hDone] at hNext
        cases hNext
  | later hOk hLater =>
      rcases c with ⟨s, pending⟩
      cases hDone
      cases hOk

/- A step that is due fails when the deck is short. -/
theorem Config.Furnished.proceed_failsOnly
    {c : Config}
    (hFurnished : c.Furnished)
    (hSeated : c.Seated)
    (shuffle : Shuffle)
    (hDue : c.pending ≠ .done) :
    (c.step (.proceed shuffle)).FailsOnly fun exn =>
      exn = .deckEmpty ∧ c.DeckShort := by
  rcases c with ⟨s, pending⟩
  exact Config.ofResult_failsOnly
    (hFurnished.body_failsOnly hSeated shuffle hDue
      fun hShort => ⟨rfl, hShort⟩)

/- What is left to run throws when it runs out of cards. -/
theorem Table.Run.throws_finish
    {table : Table}
    {trace : List (Config × Event)}
    {c : Config}
    (run : table.Run trace c)
    (shuffles : List Shuffle) :
    Throws (c.finish shuffles) ↔ c.Exhausts shuffles := by
  induction shuffles generalizing trace c with
  | nil =>
      refine iff_of_false ?_ (fun hExhausts => by
        cases hExhausts)
      unfold Config.finish
      split
      · exact not_throws_ok _
      · simp
  | cons shuffle rest ih =>
      unfold Config.finish
      split
      next hDone =>
        exact iff_of_false (not_throws_ok _)
          (Config.not_exhausts_of_done hDone)
      next hDue =>
        have hFails := run.furnished.proceed_failsOnly
          run.seated shuffle hDue
        cases hNext : c.step (.proceed shuffle) with
        | error exn =>
            rcases hFails exn hNext with ⟨rfl, hShort⟩
            exact iff_of_true (by simp) (.here hShort)
        | ok d =>
            dsimp only
            rw [ih (run.snoc hNext)]
            constructor
            · exact .later hNext
            · intro hExhausts
              cases hExhausts with
              | here hShort =>
                  rw [hShort.error run.seated run.furnished]
                    at hNext
                  cases hNext
              | later hOk hLater =>
                  rw [hNext] at hOk
                  cases hOk
                  exact hLater

------------------------------------------------------------
-- Sessions
------------------------------------------------------------

namespace GameSession

/- A call that is made of an idle session runs out of cards. -/
def Exhausts
    (s : GameSession)
    (e : Event)
    (shuffles : List Shuffle) : Prop :=
  ∃ c, Config.step ⟨s, .done⟩ e = .ok c ∧
    c.Exhausts shuffles

variable {s : GameSession}

/- It throws in no other way. -/
theorem throws_call
    {α : Type}
    {e : Event}
    {call : Except Exn (GameSession × Pending)}
    {table : Table}
    {trace : List (Config × Event)}
    (run : table.Run trace ⟨s, .done⟩)
    (hStep : Config.step ⟨s, .done⟩ e = Config.ofResult call)
    (hCall : ¬ Throws call)
    (shuffles : List Shuffle)
    (result : GameSession → α) :
    Throws (call >>= fun (called, pending) =>
      Config.finish ⟨called, pending⟩ shuffles >>= fun t =>
        .ok (result t)) ↔
      s.Exhausts e shuffles := by
  unfold Exhausts
  rw [throws_bind, or_iff_right hCall, hStep]
  constructor
  · rintro ⟨⟨called, pending⟩, rfl, hThrows⟩
    rw [throws_bind_of_rest fun _ _ => not_throws_ok _,
      Table.Run.throws_finish (run.snoc hStep)] at hThrows
    exact ⟨_, rfl, hThrows⟩
  · rintro ⟨⟨called, pending⟩, hMade, hExhausts⟩
    refine ⟨(called, pending),
      Config.ofResult_eq_ok.mp hMade, ?_⟩
    rw [throws_bind_of_rest fun _ _ => not_throws_ok _,
      Table.Run.throws_finish
        (run.snoc (hStep.trans hMade))]
    exact hExhausts

end GameSession

------------------------------------------------------------
-- Rooms
------------------------------------------------------------

namespace Room

/- What the game of the room is asked runs out of cards. -/
def PlayExhausts
    (room : Room)
    (e : Event)
    (shuffles : List Shuffle) : Prop :=
  ∃ s ∈ room.gameSession, s.Exhausts e shuffles

/- The game that the room could start runs out of cards. -/
def StartExhausts
    (room : Room)
    (world : World)
    (shuffles : List Shuffle) : Prop :=
  room.gameSession = none ∧
    ∃ bankrolls,
      room.loadPlayerBankrolls world = .ok bankrolls ∧
        Config.Exhausts
          ⟨room.makeSession world bankrolls, .start⟩ shuffles

/- So does the game that a player in the last seat starts. -/
def SeatExhausts
    (room : Room)
    (world : World)
    (player : ConnId)
    (shuffles : List Shuffle) : Prop :=
  room.players.length + 1 = room.maxPlayers.toNat ∧
    StartExhausts
      { room with players := room.players ++ [player] }
      world shuffles

variable {room : Room}
variable {world : World}
variable {player : ConnId}
variable {shuffles : List Shuffle}

/- What was sent has no part in a game. -/
theorem startExhausts_of_told
    {told : World}
    (hTold : world.Told told) :
    room.StartExhausts told shuffles ↔
      room.StartExhausts world shuffles := by
  rcases hTold with ⟨sent, rfl⟩
  exact Iff.rfl

/- A game that cannot begin throws nothing. -/
theorem InOrder.throws_startGame
    (hOrder : room.InOrder)
    (hEnough : 2 ≤ room.players.length) :
    Throws (room.startGame world shuffles) ↔
      room.StartExhausts world shuffles := by
  unfold startGame StartExhausts
  split
  next hOn =>
    simp only [not_throws_ok, false_iff, not_and]
    intro hNone
    rw [hNone] at hOn
    cases hOn
  next hOff =>
    have hNone : room.gameSession = none := by
      simpa using hOff
    split
    next code hLoad => simp [hLoad]
    next bankrolls hLoad =>
      dsimp only
      rw [throws_bind_of_rest fun _ _ => not_throws_ok _]
      simp only [hLoad, hNone, Except.ok.injEq,
        exists_eq_left', true_and]
      rw [makeSession_eq_create bankrolls hOrder.nodup hEnough]
      exact Table.Run.throws_finish Transition.Run.nil shuffles

/- The room is not full and plays no game. -/
theorem InOrder.throws_addPlayer
    (hOrder : room.InOrder)
    (hNew : player ∉ room.players)
    (hFree : room.players.length < room.maxPlayers.toNat)
    (hIdle : room.gameSession = none) :
    Throws (room.addPlayer world player shuffles) ↔
      room.SeatExhausts world player shuffles := by
  unfold addPlayer SeatExhausts
  rw [if_neg (by simp [hIdle]), if_neg (Nat.not_le.mpr hFree)]
  dsimp only
  simp only [List.length_append, List.length_singleton]
  split
  next hLast =>
    have hSeated : InOrder { room with
        players := room.players ++ [player] } := by
      refine ⟨?_, by simp [hLast], hOrder.roomy, ?_⟩
      · exact hOrder.nodup.append
          (List.nodup_singleton player) (by simpa using hNew)
      · simp [hIdle]
    have hEnough : 2 ≤ (room.players ++ [player]).length := by
      simpa [hLast] using hOrder.roomy
    rw [throws_bind_of_rest fun _ _ => not_throws_ok _,
      hSeated.throws_startGame hEnough,
      startExhausts_of_told (notifyAllAboutJoined_told _ _)]
    exact (and_iff_right hLast).symm
  next hMore => simp [hMore]

/- Whoever leaves ends or goes on with the hand. -/
theorem InOrder.throws_removePlayer
    (hOrder : room.InOrder)
    (hMem : player ∈ room.players) :
    Throws (room.removePlayer world player shuffles) ↔
      room.PlayExhausts (.removePlayer player) shuffles := by
  unfold removePlayer
  rw [if_neg (by simpa using hMem), throws_bind_of_rest]
  · unfold removeFromSession PlayExhausts
    split
    next hNone => simp [hNone]
    next s hSession =>
      have hServes := hOrder.served s hSession
      rcases hServes.played with ⟨table, trace, run⟩
      have hCall := not_throws_of_failsOnly
        (hServes.furnished.removePlayer_failsOnly player)
      have hStep : Config.step ⟨s, .done⟩
          (.removePlayer player) = Config.ofResult
            (s.removePlayer player) := by
        simp [Config.step, hServes.idle]
      simp only [hSession, Option.mem_def, Option.some.injEq,
        exists_eq_left']
      exact GameSession.throws_call run hStep hCall shuffles _
  · rintro ⟨after, told⟩ _
    dsimp only
    split
    · exact not_throws_ok _
    · exact not_throws_ok _

/- Only the host starts a game, and not alone. -/
theorem InOrder.throws_tryStartGame
    (hOrder : room.InOrder) :
    Throws (room.tryStartGame world player shuffles) ↔
      player = room.host ∧ 2 ≤ room.players.length ∧
        room.StartExhausts world shuffles := by
  unfold tryStartGame
  split
  next hOn =>
    simp only [not_throws_ok, false_iff, not_and]
    rintro _ _ ⟨hNone, _⟩
    rw [hNone] at hOn
    cases hOn
  · split
    next hGuest => simp [hGuest]
    next hHost =>
      split
      next hFew => simp [Nat.not_le.mpr hFew]
      next hEnough =>
        have hTwo := Nat.le_of_not_lt hEnough
        rw [hOrder.throws_startGame hTwo]
        simp [hTwo, not_not.mp hHost]

/- An action may close the round, and the hand. -/
theorem InOrder.throws_onPlayerAction
    {action : Action}
    {amount : Option UInt32}
    (hOrder : room.InOrder) :
    Throws (room.onPlayerAction world player action amount
        shuffles) ↔
      room.PlayExhausts (.applyAction player action amount)
        shuffles := by
  unfold onPlayerAction PlayExhausts
  split
  next hNone => simp [hNone]
  next s hSession =>
    have hServes := hOrder.served s hSession
    rcases hServes.played with ⟨table, trace, run⟩
    have hCall := not_throws_of_failsOnly
      (hServes.furnished.applyAction_failsOnly player action
        amount)
    have hStep : Config.step ⟨s, .done⟩
        (.applyAction player action amount) = Config.ofResult
          (s.applyAction player action amount) := by
      simp [Config.step, hServes.idle]
    simp only [hSession, Option.mem_def, Option.some.injEq,
      exists_eq_left']
    exact GameSession.throws_call run hStep hCall shuffles _

end Room

------------------------------------------------------------
-- Lobbies
------------------------------------------------------------

namespace Lobby

/- The game that `player` would leave runs out of cards. -/
def LeaveExhausts
    (lobby : Lobby)
    (player : ConnId)
    (shuffles : List Shuffle) : Prop :=
  ∃ ptr room, lobby.Holds ptr room ∧ player ∈ room.players ∧
    room.PlayExhausts (.removePlayer player) shuffles

/- So does the game that `player` starts as he sits down. -/
def EnterExhausts
    (lobby : Lobby)
    (roomId : UInt64)
    (player : ConnId)
    (shuffles : List Shuffle) : Prop :=
  ∃ ptr room, lobby.getRoom roomId = .ok (some ptr) ∧
    lobby.Holds ptr room ∧
      room.SeatExhausts lobby.world player shuffles

/-
  A call deals from a deck that is short: in the game that is
  left, in the one that starts, or in the one that is played.
-/
def Exhausts
    (lobby : Lobby) : Call → Prop
| .createRoom _ maxPlayers creator draws =>
    2 ≤ maxPlayers ∧
      lobby.checkPlayerBankroll creator = none ∧
        lobby.LeaveExhausts creator draws.leaving
| .joinRoom roomId player draws =>
    lobby.checkPlayerBankroll player = none ∧
      lobby.inRoomWithId player roomId = .ok false ∧
        (lobby.LeaveExhausts player draws.leaving ∨
          ∃ left,
            lobby.leavePresentRoom player draws.leaving =
              .ok left ∧
            left.EnterExhausts roomId player draws.starting)
| .leaveRoom player shuffles =>
    lobby.LeaveExhausts player shuffles
| .startGame player shuffles =>
    ∃ ptr room, lobby.Holds ptr room ∧
      player ∈ room.players ∧
        player = room.host ∧ 2 ≤ room.players.length ∧
        room.StartExhausts lobby.world shuffles
| .playerAction player action amount shuffles =>
    ∃ ptr room, lobby.Holds ptr room ∧
      player ∈ room.players ∧
        room.PlayExhausts (.applyAction player action amount)
          shuffles

variable {lobby : Lobby}
variable {player : ConnId}
variable {shuffles : List Shuffle}

/- The pointer to a player's room leads to it. -/
theorem Tidy.room_of_find
    {ptr : RoomPtr}
    (hTidy : lobby.Tidy)
    (hFind : lobby.playerRooms.find player = some ptr) :
    ∃ room, lobby.room ptr = .ok room ∧
      lobby.Holds ptr room ∧ player ∈ room.players := by
  rcases (hTidy.placed player ptr).mp hFind with
    ⟨room, hHolds, hMem⟩
  exact ⟨room, require_eq_ok.mpr hHolds.2, hHolds, hMem⟩

/- Of the rooms that are held, a player's is the one. -/
theorem Tidy.exists_held_iff
    {ptr : RoomPtr}
    {room : Room}
    {P : Room → Prop}
    (hTidy : lobby.Tidy)
    (hHolds : lobby.Holds ptr room)
    (hMem : player ∈ room.players) :
    (∃ ptr room, lobby.Holds ptr room ∧
      player ∈ room.players ∧ P room) ↔ P room := by
  constructor
  · rintro ⟨q, other, hOther, hThere, hP⟩
    have hHere := (hTidy.find_iff hHolds player).mpr hMem
    rw [(hTidy.find_iff hOther player).mpr hThere] at hHere
    cases hHere
    have hSame := hOther.2
    rw [hHolds.2] at hSame
    cases hSame
    exact hP
  · exact fun hP => ⟨ptr, room, hHolds, hMem, hP⟩

/- Whoever is put down nowhere sits nowhere. -/
theorem Tidy.not_exists_held
    {P : Room → Prop}
    (hTidy : lobby.Tidy)
    (hFree : lobby.playerRooms.find player = none) :
    ¬ ∃ ptr room, lobby.Holds ptr room ∧
      player ∈ room.players ∧ P room := by
  rintro ⟨ptr, room, hHolds, hMem, _⟩
  rw [(hTidy.find_iff hHolds player).mpr hMem] at hFree
  cases hFree

/- No list of rooms throws. -/
theorem Tidy.not_throws_broadcastRoomList
    (hTidy : lobby.Tidy) :
    ¬ Throws lobby.broadcastRoomList :=
  not_throws_of_failsOnly hTidy.broadcastRoomList_failsOnly

/- Whoever has no room leaves none. -/
theorem Tidy.throws_leaveRoom
    (hTidy : lobby.Tidy) :
    Throws (lobby.leaveRoom player shuffles) ↔
      lobby.LeaveExhausts player shuffles := by
  unfold Lobby.leaveRoom LeaveExhausts
  split
  next hFree =>
    exact iff_of_false (not_throws_ok _)
      (hTidy.not_exists_held hFree)
  next ptr hFind =>
    rcases hTidy.room_of_find hFind with
      ⟨room, hRoom, hHolds, hMem⟩
    rw [hTidy.exists_held_iff hHolds hMem, hRoom,
      Except.ok_bind, throws_bind_of_rest]
    · exact (hTidy.of_holds hHolds).1.throws_removePlayer hMem
    · rintro ⟨removed, after, world⟩ hRemove
      exact (hTidy.unseat_of_ok hHolds hMem
        hRemove).not_throws_broadcastRoomList

/- The same on the way to another room. -/
theorem Tidy.throws_leavePresentRoom
    (hTidy : lobby.Tidy) :
    Throws (lobby.leavePresentRoom player shuffles) ↔
      lobby.LeaveExhausts player shuffles := by
  unfold Lobby.leavePresentRoom
  split
  · exact hTidy.throws_leaveRoom
  next hOutside =>
    exact iff_of_false (not_throws_ok _)
      (hTidy.not_exists_held (by simpa using hOutside))

/- A room that is made has more seats than one. -/
theorem Tidy.throws_createRoom
    {name : String}
    {maxPlayers : UInt8}
    {draws : Draws}
    (hTidy : lobby.Tidy) :
    Throws (lobby.createRoom name maxPlayers player draws) ↔
      lobby.Exhausts
        (.createRoom name maxPlayers player draws) := by
  unfold Lobby.createRoom
  simp only [Lobby.Exhausts]
  split
  next hFew =>
    simp [UInt8.not_le.mpr hFew]
  next hMax =>
    split
    next hPoor =>
      refine iff_of_false (not_throws_ok _) ?_
      rintro ⟨_, hNone, _⟩
      rw [hNone] at hPoor
      cases hPoor
    next hRich =>
      rw [throws_bind_of_rest, hTidy.throws_leavePresentRoom]
      · simp [UInt8.not_lt.mp hMax,
          Option.not_isSome_iff_eq_none.mp hRich]
      · intro left hLeave
        rcases hTidy.leavePresentRoom hLeave with
          ⟨hLeft, hFree⟩
        have hRoomy : 2 ≤ maxPlayers.toNat :=
          Nat.le_of_not_lt hMax
        have hRoom : (left.makeRoom name maxPlayers
            player).room left.heap.length =
            .ok (left.freshRoom name maxPlayers player) := by
          simp [Lobby.room, makeRoom, require, freshRoom]
        rw [hRoom, Except.ok_bind, throws_bind_of_rest,
          (freshRoom_inOrder hRoomy).throws_addPlayer]
        · rintro ⟨hLast, _⟩
          simp only [freshRoom, List.length_nil] at hLast
          omega
        · simp [freshRoom]
        · simp only [freshRoom, List.length_nil]
          omega
        · rfl
        · rintro ⟨added, after, world⟩ hAdd
          rw [throws_bind_of_rest fun _ _ => not_throws_ok _]
          exact (hLeft.extend_of_ok hFree hRoomy rfl
            hAdd).not_throws_broadcastRoomList

/- Whoever enters a room has left the one before. -/
theorem Tidy.throws_enterRoom
    {roomId : UInt64}
    (hTidy : lobby.Tidy)
    (hFree : lobby.playerRooms.find player = none) :
    Throws (lobby.enterRoom roomId player shuffles) ↔
      lobby.EnterExhausts roomId player shuffles := by
  unfold Lobby.enterRoom EnterExhausts
  cases hGet : lobby.getRoom roomId with
  | error exn =>
      have hFails : (lobby.getRoom roomId).FailsOnly
          fun _ => False :=
        hTidy.getRoom_failsOnly roomId
      exact (hFails exn hGet).elim
  | ok found =>
      rw [Except.ok_bind]
      cases found with
      | none => simp
      | some ptr =>
          have hMem := mem_of_findRoom hGet
          rcases hTidy.kept ptr hMem with ⟨room, hAt, _⟩
          have hHolds : lobby.Holds ptr room := ⟨hMem, hAt⟩
          have hRoom : lobby.room ptr = .ok room :=
            require_eq_ok.mpr hAt
          have hThis : (∃ q other,
              (Except.ok (some ptr) :
                Except Exn (Option RoomPtr)) =
                  .ok (some q) ∧
                lobby.Holds q other ∧
                  other.SeatExhausts lobby.world player
                    shuffles) ↔
              room.SeatExhausts lobby.world player
                shuffles := by
            constructor
            · rintro ⟨q, other, hSame, hOther, hSeat⟩
              cases hSame
              have hHere := hOther.2
              rw [hAt] at hHere
              cases hHere
              exact hSeat
            · exact fun hSeat =>
                ⟨ptr, room, rfl, hHolds, hSeat⟩
          dsimp only
          rw [hThis, hRoom, Except.ok_bind]
          have hNew : player ∉ room.players := by
            rw [← hTidy.find_iff hHolds, hFree]
            simp
          split
          next hOn =>
            refine iff_of_false (not_throws_ok _) ?_
            rintro ⟨_, hNone, _⟩
            dsimp only at hNone
            simp [Room.isGameStarted, hNone] at hOn
          next hOpen =>
            split
            next hFull =>
              refine iff_of_false (not_throws_ok _) ?_
              rintro ⟨hLast, _⟩
              simp only [Room.getRoomInfo,
                Room.playerCount] at hFull
              omega
            next hRoomLeft =>
              have hNone : room.gameSession = none := by
                simpa [Room.isGameStarted] using hOpen
              rw [throws_bind_of_rest]
              · exact (hTidy.of_holds hHolds).1.throws_addPlayer
                  hNew (Nat.not_le.mp hRoomLeft) hNone
              · rintro ⟨added, after, world⟩ hAdd
                rcases hTidy.seat_of_ok hHolds hFree hOpen
                    hRoomLeft hAdd with
                  ⟨rfl, hSeat⟩
                dsimp only
                rw [if_pos rfl, throws_bind_of_rest
                  fun _ _ => not_throws_ok _]
                exact hSeat.not_throws_broadcastRoomList

/- The old game is left before the new one can start. -/
theorem Tidy.throws_joinRoom
    {roomId : UInt64}
    {draws : Draws}
    (hTidy : lobby.Tidy) :
    Throws (lobby.joinRoom roomId player draws) ↔
      lobby.Exhausts (.joinRoom roomId player draws) := by
  unfold Lobby.joinRoom
  simp only [Lobby.Exhausts]
  split
  next code hPoor =>
    simp [hPoor]
  next hRich =>
    cases hThere : lobby.inRoomWithId player roomId with
    | error exn =>
        have hFails : (lobby.inRoomWithId player
            roomId).FailsOnly fun _ => False :=
          hTidy.inRoomWithId_failsOnly roomId
        exact (hFails exn hThere).elim
    | ok there =>
        rw [Except.ok_bind]
        cases there with
        | true => simp
        | false =>
            simp only [Bool.false_eq_true, if_false, hRich,
              true_and]
            rw [throws_bind, hTidy.throws_leavePresentRoom]
            refine or_congr Iff.rfl (exists_congr
              fun left => and_congr_right fun hLeave => ?_)
            rcases hTidy.leavePresentRoom hLeave with
              ⟨hLeft, hFree⟩
            exact hLeft.throws_enterRoom hFree

/- The game that starts is that of the player's room. -/
theorem Tidy.throws_startGame
    (hTidy : lobby.Tidy) :
    Throws (lobby.startGame player shuffles) ↔
      lobby.Exhausts (.startGame player shuffles) := by
  unfold Lobby.startGame findRoomByPlayer
  simp only [Lobby.Exhausts]
  split
  next hFree =>
    exact iff_of_false (not_throws_ok _)
      (hTidy.not_exists_held hFree)
  next ptr hFind =>
    rcases hTidy.room_of_find hFind with
      ⟨room, hRoom, hHolds, hMem⟩
    have hOrder := (hTidy.of_holds hHolds).1
    rw [hTidy.exists_held_iff hHolds hMem, hRoom,
      Except.ok_bind, throws_bind_of_rest]
    · exact hOrder.throws_tryStartGame
    · rintro ⟨error, after, world⟩ hStart
      rcases Room.tryStartGame_of_ok hOrder hStart with
        ⟨session, hShape, hAfter⟩
      cases error with
      | some code => exact not_throws_ok _
      | none =>
          dsimp only
          rw [throws_bind_of_rest fun _ _ => not_throws_ok _]
          exact (hTidy.withSession hHolds hShape hAfter
            world).not_throws_broadcastRoomList

/- So is the game that is played. -/
theorem Tidy.throws_playerAction
    {action : Action}
    {amount : Option UInt32}
    (hTidy : lobby.Tidy) :
    Throws (lobby.playerAction player action amount
        shuffles) ↔
      lobby.Exhausts
        (.playerAction player action amount shuffles) := by
  unfold Lobby.playerAction findRoomByPlayer
  simp only [Lobby.Exhausts]
  split
  next hFree =>
    exact iff_of_false (not_throws_ok _)
      (hTidy.not_exists_held hFree)
  next ptr hFind =>
    rcases hTidy.room_of_find hFind with
      ⟨room, hRoom, hHolds, hMem⟩
    rw [hTidy.exists_held_iff hHolds hMem, hRoom,
      Except.ok_bind,
      throws_bind_of_rest fun _ _ => not_throws_ok _]
    exact (hTidy.of_holds hHolds).1.throws_onPlayerAction

/- A call throws exactly when it runs out of cards. -/
theorem Tidy.throws_step
    (hTidy : lobby.Tidy)
    (call : Call) :
    Throws (lobby.step call) ↔ lobby.Exhausts call := by
  cases call with
  | createRoom name maxPlayers creator draws =>
      exact throws_map.trans hTidy.throws_createRoom
  | joinRoom roomId player draws =>
      exact throws_map.trans hTidy.throws_joinRoom
  | leaveRoom player shuffles => exact hTidy.throws_leaveRoom
  | startGame player shuffles =>
      exact throws_map.trans hTidy.throws_startGame
  | playerAction player action amount shuffles =>
      exact hTidy.throws_playerAction

end Lobby

end Server

end Poker
