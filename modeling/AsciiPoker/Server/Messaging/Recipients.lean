import AsciiPoker.Server.Lobby.Recipients
import AsciiPoker.Server.Messaging.Authentication
import AsciiPoker.Server.Messaging.Pointers

/-
  Whom the server speaks to.

  What happens in a room stays in the room: whatever a
  connection does, the others who hear of it sit with it
  before or after, or hear of the room list only, and nobody
  who is gone hears anything.

  Main declarations:
    * `Lobby.sends_of_step`
    * `Handshake.Reaches`, `Handshake.Run.reaches`
-/

namespace Poker

namespace Server

open Protocol

------------------------------------------------------------
-- Requests
------------------------------------------------------------

namespace Lobby

variable {lobby mid new after : Lobby}
variable {player : ConnId}

/- A call speaks of a room to those in it, and to the list. -/
theorem sends_of_step
    {call : Call}
    (hTidy : lobby.Tidy)
    (hOk : lobby.step call = .ok new) :
    lobby.world.Sends (lobby.Reaches new call.caller)
      new.world := by
  cases call with
  | createRoom name maxPlayers creator draws =>
      rcases Except.map_eq_ok.mp hOk with
        ⟨⟨made, after⟩, hCreate, rfl⟩
      exact createRoom_sends hTidy hCreate
  | joinRoom roomId player draws =>
      rcases Except.map_eq_ok.mp hOk with
        ⟨⟨error, after⟩, hJoin, rfl⟩
      exact joinRoom_sends hTidy hJoin
  | leaveRoom player shuffles =>
      exact (leaveRoom_sends hTidy hOk).mono
        fun d msg hMeant => Meant.mono hMeant Or.inl id
  | startGame player shuffles =>
      rcases Except.map_eq_ok.mp hOk with
        ⟨⟨error, after⟩, hStart, rfl⟩
      exact startGame_sends hTidy hStart
  | playerAction player action amount shuffles =>
      exact playerAction_sends hTidy hOk

theorem Called.sends
    (hTidy : lobby.Tidy)
    (hCalled : lobby.Called player mid) :
    lobby.world.Sends (lobby.Reaches mid player)
      mid.world := by
  rcases hCalled with rfl | ⟨call, rfl, hOk⟩
  · exact World.Sends.of_outbox rfl
  · exact sends_of_step hTidy hOk

/- An answer is for whoever asked. -/
theorem Answered.sends
    {mates listed : ConnId → Prop}
    (hAnswered : mid.Answered player after)
    (hListed : listed player) :
    mid.world.Sends (Meant mates listed player)
      after.world := by
  cases hAnswered with
  | silent => exact World.Sends.of_outbox rfl
  | refused => exact World.sends_send rfl
  | left => exact World.sends_send rfl
  | listed hList => exact World.sends_send hListed

theorem Told.together_iff
    {c d : ConnId}
    (hTold : lobby.Told new) :
    new.Together c d ↔ lobby.Together c d := by
  unfold Together
  rw [hTold.playerRooms_eq]

end Lobby

------------------------------------------------------------
-- Events
------------------------------------------------------------

namespace Handshake

variable {parse : Parser}
variable {pbkdf2 : Pbkdf2}
variable {users : UserRepository}
variable {h after : Handshake}
variable {c d : ConnId}
variable {e : Event}

/- Those whom the server may speak to of an event. -/
def Reaches
    (h after : Handshake)
    (c : ConnId) : ConnId → ServerMessage → Prop :=
  Meant
    (fun d => h.lobby.Together c d ∨ after.lobby.Together c d)
    after.Online c

/- A seat next to somebody is a seat of one's own. -/
theorem Guarded.online_of_together
    (hGuarded : h.Guarded)
    (hTogether : h.lobby.Together c d) :
    h.Online d := by
  rcases hTogether with ⟨ptr, _, hFind⟩
  exact hGuarded.online d ptr hFind

theorem Listed.online_of_registered
    (hListed : h.Listed)
    (hRegistered : h.lobby.Registered d) :
    h.Online d := by
  rcases hListed with ⟨connections, hSome, _, hIff⟩
  rcases hRegistered with ⟨others, hOthers, hMem⟩
  rw [hSome] at hOthers
  cases hOthers
  exact (hIff d).mp hMem

/- Whoever logs in is answered, and nobody is closed. -/
theorem finishAuthentication_answers
    (h : Handshake)
    (users : UserRepository)
    (name : String)
    (c : ConnId)
    (chips : UInt32)
    (isNewAccount : Bool)
    (mates listed : ConnId → Prop) :
    ((h.setUsers users).finishAuthentication name c chips
        isNewAccount).closed = h.closed ∧
      h.lobby.world.Sends (Meant mates listed c)
        ((h.setUsers users).finishAuthentication name c chips
          isNewAccount).lobby.world := by
  by_cases hTaken : name ∈ (h.setUsers users).nameRegistry
  · rw [finishAuthentication_of_taken hTaken]
    refine ⟨rfl, [(c, _)], rfl, fun letter hMem => ?_⟩
    rw [List.mem_singleton.mp hMem]
    exact rfl
  · rw [finishAuthentication_of_free hTaken]
    refine ⟨rfl, [(c, _)], rfl, fun letter hMem => ?_⟩
    rw [List.mem_singleton.mp hMem]
    exact rfl

/- Whoever is closed stays closed. -/
theorem closed_subset
    (hOk : h.step parse pbkdf2 e = .ok after) :
    h.closed ⊆ after.closed := by
  cases e with
  | message c body draws salt =>
      rcases processed_of_step hOk with ⟨_, hProcessed⟩
      cases hProcessed with
      | refused hNobody => exact Finset.Subset.refl _
      | requested hThere hProcess =>
          exact Finset.Subset.refl _
      | opened hNew hLogin hUsers hName hPassword hOpens
          hFind =>
          exact (h.finishAuthentication_answers _ _ c _ _
            (fun _ => True) fun _ => True).1.superset
  | disconnect c shuffles =>
      rcases onDisconnect_of_step hOk with ⟨_, hGone⟩
      rw [(onDisconnect_of_ok hGone).2.2.1]
      exact Finset.subset_insert c h.closed

theorem sender_open
    (hOk : h.step parse pbkdf2 e = .ok after) :
    e.sender ∉ h.closed := by
  cases e with
  | message c body draws salt =>
      exact (processed_of_step hOk).1
  | disconnect c shuffles =>
      exact (onDisconnect_of_step hOk).1

/- Nobody who is closed is spoken to. -/
theorem Reaches.open
    {msg : ServerMessage}
    (hGuarded : h.Guarded)
    (hAfter : after.Guarded)
    (hOk : h.step parse pbkdf2 e = .ok after)
    (hReaches : h.Reaches after e.sender d msg) :
    d ∉ h.closed := by
  have hOnline : after.Online d → d ∉ h.closed :=
    fun hThere hClosed =>
      hThere.2 (closed_subset hOk hClosed)
  have hMates :
      h.lobby.Together e.sender d ∨
        after.lobby.Together e.sender d → d ∉ h.closed := by
    rintro (hBefore | hNow)
    · exact (hGuarded.online_of_together hBefore).2
    · exact hOnline (hAfter.online_of_together hNow)
  have hSelf : d = e.sender → d ∉ h.closed :=
    fun hSame => hSame ▸ sender_open hOk
  cases msg with
  | welcome msg => exact hSelf hReaches
  | error msg => exact hSelf hReaches
  | leftRoom msg => exact hSelf hReaches
  | roomList msg => exact hOnline hReaches
  | joinedRoom msg => exact hMates hReaches
  | gameStateUpdate msg => exact hMates hReaches
  | yourTurn msg => exact hMates hReaches
  | handResult msg => exact hMates hReaches
  | actionEvent msg => exact hMates hReaches

/- What an event sends, from any state that is in order. -/
theorem sends_of_ok
    (hGuarded : h.Guarded)
    (hListed : h.Listed)
    (hAfter : after.Listed)
    (hOk : h.step parse pbkdf2 e = .ok after) :
    h.lobby.world.Sends (h.Reaches after e.sender)
      after.lobby.world := by
  cases e with
  | message c body draws salt =>
      rcases processed_of_step hOk with ⟨hOpen, hProcessed⟩
      cases hProcessed with
      | refused hNobody => exact World.sends_send rfl
      | @requested msg _ lobby hThere hProcess =>
          rcases Lobby.processClientMessage_of_ok hProcess
            with ⟨mid, hCalled, hAnswered⟩
          have hSelf : Online { h with lobby := lobby } c :=
            ⟨hThere, hOpen⟩
          refine (hCalled.sends hGuarded.tidy |>.mono ?_).trans
            (hAnswered.sends hSelf)
          intro d msg hMeant
          refine Meant.mono hMeant ?_ ?_
          · rintro (hBefore | hNow)
            · exact Or.inl hBefore
            · exact Or.inr
                (hAnswered.told.together_iff.mpr hNow)
          · exact hListed.online_of_registered
      | opened hNew hLogin hUsers hName hPassword hOpens
          hFind =>
          exact (h.finishAuthentication_answers _ _ c _ _ _
            _).2
  | disconnect c shuffles =>
      rcases onDisconnect_of_step hOk with ⟨_, hGone⟩
      rcases leaveRoom_of_onDisconnect hGone with
        ⟨mid, hSame, hWorld, hLeave⟩
      have hSends := Lobby.leaveRoom_sends
        (hSame.tidy hGuarded.tidy) hLeave
      rw [hWorld] at hSends
      refine hSends.mono fun d msg hMeant => ?_
      refine Meant.mono hMeant ?_ ?_
      · unfold Lobby.Together
        rw [hSame.playerRooms]
        exact Or.inl
      · intro hThere
        unfold Lobby.Registered at hThere
        rw [← (Lobby.leaveRoom_keeps hLeave).registry]
          at hThere
        exact hAfter.online_of_registered hThere

/-
  At every step of every run: nobody who is closed gets a
  letter, an answer goes to the sender of the packet, the
  room list to whoever is online afterwards, and a letter of
  a room or its game to whoever sits with the sender.
-/
theorem Run.reaches
    {trace : List (Handshake × Event)}
    (run : Run parse pbkdf2 users trace h)
    (hOk : h.step parse pbkdf2 e = .ok after) :
    h.lobby.world.Sends
      (fun d msg => d ∉ h.closed ∧
        h.Reaches after e.sender d msg)
      after.lobby.world := by
  have later := Transition.Run.snoc run hOk
  have hSends := sends_of_ok (Run.guarded run)
    (Run.listed run) (Run.listed later) hOk
  exact hSends.mono fun d msg hReaches =>
    ⟨hReaches.open (Run.guarded run) (Run.guarded later) hOk,
      hReaches⟩

/- Bobby's request to join the room of Alice. -/
def bobbyJoins : Event :=
  .message 1 joinBody
    { starting := [.unshuffled, .unshuffled] } none

/- Both hear of it and of their game, and of the room list. -/
theorem bobbyJoins_sends :
    ∃ trace h after,
      Run pairParser loginPbkdf2 pairUsers trace h ∧
        h.step pairParser loginPbkdf2 bobbyJoins =
          .ok after ∧
        (after.lobby.world.outbox.drop
            h.lobby.world.outbox.length).map Prod.fst =
          [0, 1, 0, 1, 0, 1, 0] ∧
        h.lobby.world.Sends
          (fun d msg => d ∉ h.closed ∧ h.Reaches after 1 d msg)
          after.lobby.world := by
  have hPasses : Transition.passes
      (step pairParser loginPbkdf2) (opening pairUsers)
      [login 0 "Alice", login 1 "Bobby",
        .message 0 createBody {} none]
      (fun _ h => (h.step pairParser loginPbkdf2
          bobbyJoins).toOption.any fun after =>
        decide ((after.lobby.world.outbox.drop
            h.lobby.world.outbox.length).map Prod.fst =
          [0, 1, 0, 1, 0, 1, 0])) = true := by
    decide +kernel
  rcases Transition.exists_run_of_passes hPasses with
    ⟨trace, h, run, hTest⟩
  rw [Option.any_eq_true] at hTest
  rcases hTest with ⟨after, hSome, hTold⟩
  have hOk : h.step pairParser loginPbkdf2 bobbyJoins =
      .ok after := by
    cases hStep : h.step pairParser loginPbkdf2 bobbyJoins with
    | error exn =>
        rw [hStep] at hSome
        cases hSome
    | ok reached =>
        rw [hStep] at hSome
        cases hSome
        rfl
  exact ⟨trace, h, after, run, hOk, of_decide_eq_true hTold,
    Run.reaches run hOk⟩

end Handshake

end Server

end Poker
