import AsciiPoker.Server.GameSession.DeckSize
import AsciiPoker.Server.Lobby.Consistency
import AsciiPoker.Server.Lobby.Balances

/-
  Which exceptions a lobby can throw.

  In a tidy lobby every pointer leads to a room and every
  game is a state of some table's run, so that a call fails
  only as the games fail that it calls.  These fail when a
  deck runs out, and a table of at most 23 players has none
  that does.

  A call is handed the shuffles it draws.  It fails with
  `notEnabled` when it is handed too few, which is no failure
  of the program.

  Main declarations:
    * `Table.FinishesOnly`, `Table.finishesOnly_of_small`
    * `Room.FinishesOnly`
    * `Room.InOrder.addPlayer_failsOnly` and its siblings
    * `Lobby.Tidy.step_failsOnly`, `Lobby.Run.step_failsOnly`
    * `Lobby.crowd_deckEmpty`
-/

namespace Poker

namespace Server

open Protocol

section Progress

variable {Kind : Exn → Prop}

------------------------------------------------------------
-- Tables
------------------------------------------------------------

/- Whatever is left to run at the table fails so, if it does. -/
def Table.FinishesOnly
    (table : Table)
    (Kind : Exn → Prop) : Prop :=
  ∀ trace c shuffles, table.Run trace c →
    (c.finish shuffles).FailsOnly Kind

/- What is left to run fails as its steps do. -/
theorem Table.finishesOnly_of_step
    {table : Table}
    (hReady : Kind .notEnabled)
    (hStep : ∀ trace c shuffle, table.Run trace c →
      (c.step (.proceed shuffle)).FailsOnly Kind) :
    table.FinishesOnly Kind := by
  have hNotEnabled : (.error .notEnabled :
      Except Exn GameSession).FailsOnly Kind := by
    intro exn hError
    cases hError
    exact hReady
  intro trace c shuffles run
  induction shuffles generalizing trace c with
  | nil =>
      unfold Config.finish
      split
      · exact Except.failsOnly_ok _
      · exact hNotEnabled
  | cons shuffle rest ih =>
      unfold Config.finish
      split
      · exact Except.failsOnly_ok _
      · have hFails := hStep trace c shuffle run
        cases hNext : c.step (.proceed shuffle) with
        | error exn =>
            intro other hError
            cases hError
            exact hFails exn hNext
        | ok d => exact ih _ d (run.snoc hNext)

/- A call of a session is finished unless the deck runs out. -/
theorem Table.finishesOnly_deckEmpty
    (table : Table)
    (hDeck : Kind .deckEmpty)
    (hReady : Kind .notEnabled) :
    table.FinishesOnly Kind :=
  finishesOnly_of_step hReady fun _ _ shuffle run =>
    run.furnished.step_failsOnly run.seated (.proceed shuffle)
      (fun _ _ _ => hDeck) hReady

/- Nobody sits down at a table whose game is on. -/
theorem Table.Run.length_players_le
    {table : Table}
    {trace : List (Config × Event)}
    {c : Config}
    (run : table.Run trace c) :
    c.session.players.length ≤ table.roster.players.length :=
  (run.seated.nodup.subperm
    (Config.run_keeps run).players).length_le

/- So nobody is dealt in who did not sit there at first. -/
theorem Table.Run.dealtTo_le
    {table : Table}
    {trace : List (Config × Event)}
    {c : Config}
    (run : table.Run trace c) :
    dealtTo trace ≤ table.roster.players.length := by
  induction run with
  | nil => exact Nat.zero_le _
  | snoc run hOk ih =>
      rw [dealtTo_snoc]
      split
      · exact Table.Run.length_players_le run
      · exact ih

/- The deck serves 23 players to the river. -/
theorem Table.finishesOnly_of_small
    {table : Table}
    (hSmall : table.roster.players.length ≤ 23)
    (hReady : Kind .notEnabled) :
    table.FinishesOnly Kind := by
  refine finishesOnly_of_step hReady
    fun trace c shuffle run => ?_
  refine run.furnished.step_failsOnly run.seated
    (.proceed shuffle) (fun other _ hShort => ?_) hReady
  have hSeats := run.length_players_le
  have hDealt := run.dealtTo_le
  rcases (run.deckShort_iff other).mp hShort with
    ⟨_, hMany⟩ | ⟨_, _, hMany | hMany | hMany⟩
  · omega
  · omega
  · omega
  · omega

------------------------------------------------------------
-- Sessions
------------------------------------------------------------

namespace GameSession

variable {s : GameSession}
variable {connections : List ConnId}

/- A call by the room, and what it leads to. -/
theorem call_failsOnly
    {α : Type}
    {e : Event}
    {call : Except Exn (GameSession × Pending)}
    {table : Table}
    {trace : List (Config × Event)}
    (run : table.Run trace ⟨s, .done⟩)
    (hFinishes : table.FinishesOnly Kind)
    (hStep : ∀ called pending, call = .ok (called, pending) →
      Config.step ⟨s, .done⟩ e = .ok ⟨called, pending⟩)
    (hCall : call.FailsOnly Kind)
    (shuffles : List Shuffle)
    (result : GameSession → α) :
    (call >>= fun (called, pending) =>
      Config.finish ⟨called, pending⟩ shuffles >>= fun t =>
        .ok (result t)).FailsOnly Kind := by
  refine hCall.bind fun made hMade => ?_
  rcases made with ⟨called, pending⟩
  have hFinish := hFinishes _ _ shuffles
    (run.snoc (hStep called pending hMade))
  exact hFinish.bind fun _ _ => Except.failsOnly_ok _

/- A session that serves a room is furnished. -/
theorem Serves.furnished
    (hServes : s.Serves connections) :
    s.Furnished := by
  rcases hServes.played with ⟨table, trace, run⟩
  exact run.furnished.session (by simp)
    (Or.inr hServes.idle.2)

end GameSession

------------------------------------------------------------
-- Rooms
------------------------------------------------------------

namespace Room

/-
  The game of the room, and each that it has the seats to
  start, fails so if it does.
-/
structure FinishesOnly
    (Kind : Exn → Prop)
    (room : Room) : Prop where
  played : ∀ s ∈ room.gameSession,
    ∃ (table : Table) (trace : List (Config × Event)),
      table.Run trace ⟨s, .done⟩ ∧ table.FinishesOnly Kind
  started : ∀ table : Table,
    table.roster.players.length ≤ room.maxPlayers.toNat →
      table.FinishesOnly Kind

variable {room after : Room}
variable {world world' : World}
variable {player : ConnId}
variable {shuffles : List Shuffle}

/- All that a game can lack is cards. -/
theorem InOrder.finishesOnly_deckEmpty
    (hOrder : room.InOrder)
    (hDeck : Kind .deckEmpty)
    (hReady : Kind .notEnabled) :
    room.FinishesOnly Kind := by
  refine ⟨fun s hs => ?_, fun table _ =>
    table.finishesOnly_deckEmpty hDeck hReady⟩
  rcases (hOrder.served s hs).played with ⟨table, trace, run⟩
  exact ⟨table, trace, run,
    table.finishesOnly_deckEmpty hDeck hReady⟩

/- A room starts the game of its own players. -/
theorem InOrder.startGame_failsOnly
    (hOrder : room.InOrder)
    (hEnough : 2 ≤ room.players.length)
    (hFinishes : room.FinishesOnly Kind) :
    (room.startGame world shuffles).FailsOnly Kind := by
  unfold startGame
  split
  · exact Except.failsOnly_ok _
  · split
    · exact Except.failsOnly_ok _
    next bankrolls _ =>
      dsimp only
      rw [makeSession_eq_create bankrolls hOrder.nodup hEnough]
      refine (hFinishes.started _ ?_ [] _ shuffles
        Transition.Run.nil).bind fun _ _ =>
          Except.failsOnly_ok _
      simpa [Roster.players, roster] using hOrder.bounded

/- The last seat is what starts a game. -/
theorem InOrder.addPlayer_failsOnly
    (hOrder : room.InOrder)
    (hNew : player ∉ room.players)
    (hFinishes :
      room.players.length + 1 = room.maxPlayers.toNat →
        room.FinishesOnly Kind) :
    (room.addPlayer world player shuffles).FailsOnly Kind := by
  unfold addPlayer
  split
  · exact Except.failsOnly_ok _
  next hIdle =>
    split
    · exact Except.failsOnly_ok _
    next hFree =>
      dsimp only
      split
      next hLast =>
        have hNone : room.gameSession = none := by
          simpa using hIdle
        have hSeated : InOrder { room with
            players := room.players ++ [player] } := by
          refine ⟨?_, Nat.le_of_eq hLast, hOrder.roomy, ?_⟩
          · exact hOrder.nodup.append
              (List.nodup_singleton player)
              (by simpa using hNew)
          · simp [hNone]
        have hEnough :
            2 ≤ (room.players ++ [player]).length := by
          rw [hLast]
          exact hOrder.roomy
        have hThere : FinishesOnly Kind { room with
            players := room.players ++ [player] } :=
          ⟨by simp [hNone],
            (hFinishes (by simpa using hLast)).started⟩
        exact (hSeated.startGame_failsOnly hEnough
          hThere).bind fun _ _ => Except.failsOnly_ok _
      next => exact Except.failsOnly_ok _

/- Leaving calls the session, which can end the hand. -/
theorem InOrder.removePlayer_failsOnly
    (hOrder : room.InOrder)
    (hFinishes : room.FinishesOnly Kind) :
    (room.removePlayer world player shuffles).FailsOnly
      Kind := by
  unfold removePlayer
  split
  · exact Except.failsOnly_ok _
  · refine Except.FailsOnly.bind ?_ fun _ _ => ?_
    · unfold removeFromSession
      split
      · exact Except.failsOnly_ok _
      next session hSession =>
        have hServes := hOrder.served session hSession
        rcases hFinishes.played session hSession with
          ⟨table, trace, run, hTable⟩
        exact GameSession.call_failsOnly
          (e := .removePlayer player) run hTable
          (fun called pending hCall => by
            simp [Config.step, hServes.idle, hCall])
          (hServes.furnished.removePlayer_failsOnly player)
          shuffles _
    · dsimp only
      split
      · exact Except.failsOnly_ok _
      · exact Except.failsOnly_ok _

/- The checks before the start throw nothing. -/
theorem InOrder.tryStartGame_failsOnly
    (hOrder : room.InOrder)
    (hFinishes : room.FinishesOnly Kind) :
    (room.tryStartGame world player shuffles).FailsOnly
      Kind := by
  unfold tryStartGame
  split
  · exact Except.failsOnly_ok _
  · split
    · exact Except.failsOnly_ok _
    · split
      · exact Except.failsOnly_ok _
      next hEnough =>
        exact hOrder.startGame_failsOnly
          (Nat.le_of_not_lt hEnough) hFinishes

/- An action calls the session, which can end the hand. -/
theorem InOrder.onPlayerAction_failsOnly
    {action : Action}
    {amount : Option UInt32}
    (hOrder : room.InOrder)
    (hFinishes : room.FinishesOnly Kind) :
    (room.onPlayerAction world player action amount
      shuffles).FailsOnly Kind := by
  unfold onPlayerAction
  split
  · exact Except.failsOnly_ok _
  next session hSession =>
    have hServes := hOrder.served session hSession
    rcases hFinishes.played session hSession with
      ⟨table, trace, run, hTable⟩
    exact GameSession.call_failsOnly
      (e := .applyAction player action amount) run hTable
      (fun called pending hCall => by
        simp [Config.step, hServes.idle, hCall])
      (hServes.furnished.applyAction_failsOnly player action
        amount)
      shuffles _

/- The seats stay the same, and a game goes on or begins. -/
theorem Evolves.finishesOnly
    (hEvolves : room.Evolves after world world')
    (hOrder : after.InOrder)
    (hSeats : after.maxPlayers = room.maxPlayers)
    (hFinishes : room.FinishesOnly Kind) :
    after.FinishesOnly Kind := by
  refine ⟨fun u hu => ?_, ?_⟩
  · cases hEvolves with
    | rested hSession hTold =>
        rw [hSession] at hu
        exact hFinishes.played u hu
    | called hSession hOk hFinish hKept hTold =>
        cases hKept u hu
        rcases hFinishes.played _ hSession with
          ⟨table, trace, run, hTable⟩
        rcases GameSession.run_of_call hOk hFinish with
          ⟨later, rest⟩
        exact ⟨table, _, run.append rest, hTable⟩
    | @created told bankrolls session shuffles hNone hTold
        hLoad hFinish hSession hSent =>
        have hServes := hOrder.served session hSession
        rw [hSession] at hu
        cases hu
        rcases Config.finish_run hFinish with ⟨later, run, _⟩
        rw [makeSession_eq_create bankrolls hOrder.nodup
          hServes.enough] at run
        refine ⟨_, later, run, hFinishes.started _ ?_⟩
        have hFit := hOrder.bounded
        rw [hSeats] at hFit
        simpa [Roster.players, roster] using hFit
  · rw [hSeats]
    exact hFinishes.started

end Room

------------------------------------------------------------
-- Lobbies
------------------------------------------------------------

namespace Lobby

variable {lobby new : Lobby}
variable {ptr : RoomPtr}
variable {player : ConnId}
variable {shuffles : List Shuffle}

/- A pointer of a tidy lobby leads to a room. -/
theorem Tidy.room_failsOnly
    (hTidy : lobby.Tidy)
    (hMem : ptr ∈ lobby.rooms) :
    (lobby.room ptr).FailsOnly Kind := by
  rcases hTidy.kept ptr hMem with ⟨room, hAt, _⟩
  exact require_failsOnly (by simp [hAt])

/- So does the pointer to a player's room. -/
theorem Tidy.roomOf_failsOnly
    (hTidy : lobby.Tidy)
    (hFind : lobby.playerRooms.find player = some ptr) :
    (lobby.room ptr).FailsOnly Kind := by
  rcases (hTidy.placed player ptr).mp hFind with
    ⟨room, hHolds, _⟩
  exact hTidy.room_failsOnly hHolds.1

/- Every room that is listed can be looked up. -/
theorem Tidy.getRoomList_failsOnly
    (hTidy : lobby.Tidy) :
    lobby.getRoomList.FailsOnly Kind := by
  unfold getRoomList
  refine (List.failsOnly_mapM fun ptr hPtr =>
    hTidy.room_failsOnly hPtr).bind fun _ _ => ?_
  exact Except.failsOnly_ok _

theorem Tidy.broadcastRoomList_failsOnly
    (hTidy : lobby.Tidy) :
    lobby.broadcastRoomList.FailsOnly Kind := by
  unfold Lobby.broadcastRoomList
  split
  · exact Except.failsOnly_ok _
  · exact hTidy.getRoomList_failsOnly.bind
      fun _ _ => Except.failsOnly_ok _

theorem Tidy.getRoom_failsOnly
    (hTidy : lobby.Tidy)
    (id : UInt64) :
    (lobby.getRoom id).FailsOnly Kind := by
  suffices hFind : ∀ ptrs : List RoomPtr,
      (∀ ptr ∈ ptrs, ptr ∈ lobby.rooms) →
      (lobby.findRoom id ptrs).FailsOnly Kind from
    hFind lobby.rooms fun _ h => h
  intro ptrs
  induction ptrs with
  | nil => exact fun _ => Except.failsOnly_ok _
  | cons ptr ptrs ih =>
      intro hListed
      unfold findRoom
      refine (hTidy.room_failsOnly
        (hListed ptr (List.mem_cons_self ..))).bind
          fun room _ => ?_
      split
      · exact Except.failsOnly_ok _
      · exact ih fun q hq =>
          hListed q (List.mem_cons_of_mem _ hq)

theorem Tidy.inRoomWithId_failsOnly
    (hTidy : lobby.Tidy)
    (roomId : UInt64) :
    (lobby.inRoomWithId player roomId).FailsOnly Kind := by
  unfold inRoomWithId
  split
  · exact Except.failsOnly_ok _
  next ptr hFind =>
    exact (hTidy.roomOf_failsOnly hFind).bind
      fun _ _ => Except.failsOnly_ok _

/- A room that is written back has the seats it had. -/
theorem maxPlayers_of_set
    {heap : List Room}
    {q : RoomPtr}
    {before after room : Room}
    (hBefore : heap[q]? = some before)
    (hSeats : after.maxPlayers = before.maxPlayers)
    (hAt : (heap.set q after)[ptr]? = some room) :
    ∃ old, heap[ptr]? = some old ∧
      room.maxPlayers = old.maxPlayers := by
  by_cases hEq : q = ptr
  · subst hEq
    rw [List.getElem?_set_self
      (List.getElem?_eq_some_iff.mp hBefore).1] at hAt
    cases hAt
    exact ⟨before, hBefore, hSeats⟩
  · rw [List.getElem?_set_ne hEq] at hAt
    exact ⟨room, hAt, rfl⟩

/- No room gets more seats by a departure. -/
theorem Departs.maxPlayers_eq
    {left : Lobby}
    {room : Room}
    (hDeparts : lobby.Departs player shuffles left)
    (hTidy : lobby.Tidy)
    (hAt : left.heap[ptr]? = some room) :
    ∃ old, lobby.heap[ptr]? = some old ∧
      room.maxPlayers = old.maxPlayers := by
  cases hDeparts with
  | outside hFree => exact ⟨room, hAt, rfl⟩
  | @leaving q before after removed world left hHolds hMem
      hRemove hTold =>
      rcases hTold with ⟨w, _, rfl⟩
      rcases Room.removePlayer_of_ok
          (hTidy.of_holds hHolds).1 hMem hRemove with
        ⟨_, session, hShape⟩
      dsimp only at hAt
      rw [(dropIfEmpty_frame _ q after).1] at hAt
      exact maxPlayers_of_set hHolds.2 (by rw [hShape]) hAt

/- Whoever leaves changes nothing about how games fail. -/
theorem Departs.finishesOnly
    {left : Lobby}
    (hDeparts : lobby.Departs player shuffles left)
    (hTidy : lobby.Tidy)
    (hEach : lobby.Each (Room.FinishesOnly Kind)) :
    left.Each (Room.FinishesOnly Kind) := by
  rcases hDeparts.rewrites hTidy with
    ⟨_, rfl⟩ | ⟨ptr, room, after, hRewrites, _, _⟩
  · exact hEach
  · refine hRewrites.each ?_ fun q other _ hOther =>
      hEach q other hOther
    have hLt := (List.getElem?_eq_some_iff.mp
      hRewrites.holds.2).1
    have hThere : left.heap[ptr]? = some after := by
      rw [hRewrites.heap]
      exact List.getElem?_set_self hLt
    rcases hDeparts.maxPlayers_eq hTidy hThere with
      ⟨before, hBefore, hSeats⟩
    rw [hRewrites.holds.2] at hBefore
    cases hBefore
    exact hRewrites.evolves.finishesOnly hRewrites.inOrder
      hSeats (hEach ptr room hRewrites.holds)

/- What a player leaves is tidy again and can be listed. -/
theorem Tidy.leaveRoom_failsOnly
    (hTidy : lobby.Tidy)
    (hEach : lobby.Each (Room.FinishesOnly Kind)) :
    (lobby.leaveRoom player shuffles).FailsOnly Kind := by
  unfold Lobby.leaveRoom
  split
  · exact Except.failsOnly_ok _
  next ptr hFind =>
    refine (hTidy.roomOf_failsOnly hFind).bind
      fun room hRoom => ?_
    rcases hTidy.holds_of_find hFind hRoom with
      ⟨hHolds, hMem⟩
    rcases hTidy.of_holds hHolds with ⟨hOrder, hHost⟩
    refine (hOrder.removePlayer_failsOnly
      (hEach ptr room hHolds)).bind fun made hRemove => ?_
    rcases made with ⟨removed, after, world⟩
    exact (hTidy.unseat_of_ok hHolds hMem
      hRemove).broadcastRoomList_failsOnly

theorem Tidy.leavePresentRoom_failsOnly
    (hTidy : lobby.Tidy)
    (hEach : lobby.Each (Room.FinishesOnly Kind)) :
    (lobby.leavePresentRoom player shuffles).FailsOnly
      Kind := by
  unfold Lobby.leavePresentRoom
  split
  · exact hTidy.leaveRoom_failsOnly hEach
  · exact Except.failsOnly_ok _

/- A room that is made has seats left, so no game starts. -/
theorem Tidy.createRoom_failsOnly
    {name : String}
    {maxPlayers : UInt8}
    {draws : Draws}
    (hTidy : lobby.Tidy)
    (hEach : lobby.Each (Room.FinishesOnly Kind)) :
    (lobby.createRoom name maxPlayers player
      draws).FailsOnly Kind := by
  unfold Lobby.createRoom
  split
  · exact Except.failsOnly_ok _
  next hMax =>
    split
    · exact Except.failsOnly_ok _
    · refine (hTidy.leavePresentRoom_failsOnly hEach).bind
        fun left hLeave => ?_
      rcases hTidy.leavePresentRoom hLeave with ⟨hLeft, hFree⟩
      have hRoomy : 2 ≤ maxPlayers.toNat :=
        Nat.le_of_not_lt hMax
      dsimp only
      refine Except.FailsOnly.bind ?_ fun room hRoom => ?_
      · exact require_failsOnly (by simp [makeRoom])
      have hFresh := freshRoom_of_ok hRoom
      have hOrder : room.InOrder := by
        rw [hFresh]
        exact freshRoom_inOrder hRoomy
      refine (hOrder.addPlayer_failsOnly
        (by simp [hFresh, freshRoom]) fun hLast => ?_).bind
          fun made hAdd => ?_
      · simp only [hFresh, freshRoom, List.length_nil] at hLast
        omega
      rcases made with ⟨added, after, world⟩
      refine (hLeft.extend_of_ok hFree hRoomy hFresh
        hAdd).broadcastRoomList_failsOnly.bind fun _ _ => ?_
      exact Except.failsOnly_ok _

/- A room that is found can be looked up and entered. -/
theorem Tidy.enterRoom_failsOnly
    {roomId : UInt64}
    (hTidy : lobby.Tidy)
    (hFree : lobby.playerRooms.find player = none)
    (hEach : lobby.Each (Room.FinishesOnly Kind)) :
    (lobby.enterRoom roomId player shuffles).FailsOnly
      Kind := by
  unfold Lobby.enterRoom
  refine (hTidy.getRoom_failsOnly roomId).bind
    fun found hGet => ?_
  split
  · exact Except.failsOnly_ok _
  next ptr =>
    have hMem := mem_of_findRoom hGet
    refine (hTidy.room_failsOnly hMem).bind fun room hRoom => ?_
    have hHolds : lobby.Holds ptr room :=
      ⟨hMem, require_eq_ok.mp hRoom⟩
    split
    · exact Except.failsOnly_ok _
    next hOpen =>
      split
      · exact Except.failsOnly_ok _
      next hRoomLeft =>
        have hNew : player ∉ room.players := by
          rw [← hTidy.find_iff hHolds, hFree]
          simp
        refine ((hTidy.of_holds hHolds).1.addPlayer_failsOnly
          hNew fun _ => hEach ptr room hHolds).bind
            fun made hAdd => ?_
        rcases made with ⟨added, after, world⟩
        rcases hTidy.seat_of_ok hHolds hFree hOpen hRoomLeft
            hAdd with
          ⟨rfl, hSeat⟩
        exact hSeat.broadcastRoomList_failsOnly.bind
          fun _ _ => Except.failsOnly_ok _

/- One game is left, then another can start. -/
theorem Tidy.joinRoom_failsOnly
    {roomId : UInt64}
    {draws : Draws}
    (hTidy : lobby.Tidy)
    (hEach : lobby.Each (Room.FinishesOnly Kind)) :
    (lobby.joinRoom roomId player draws).FailsOnly Kind := by
  unfold Lobby.joinRoom
  split
  · exact Except.failsOnly_ok _
  · refine (hTidy.inRoomWithId_failsOnly roomId).bind
      fun same _ => ?_
    split
    · exact Except.failsOnly_ok _
    · refine (hTidy.leavePresentRoom_failsOnly hEach).bind
        fun left hLeave => ?_
      rcases hTidy.leavePresentRoom hLeave with ⟨hLeft, hFree⟩
      have hDeparts := departs_of_leavePresentRoom hTidy hLeave
      exact hLeft.enterRoom_failsOnly hFree
        (hDeparts.finishesOnly hTidy hEach)

theorem Tidy.startGame_failsOnly
    (hTidy : lobby.Tidy)
    (hEach : lobby.Each (Room.FinishesOnly Kind)) :
    (lobby.startGame player shuffles).FailsOnly Kind := by
  unfold Lobby.startGame findRoomByPlayer
  split
  · exact Except.failsOnly_ok _
  next ptr hFind =>
    refine (hTidy.roomOf_failsOnly hFind).bind
      fun room hRoom => ?_
    have hHolds := (hTidy.holds_of_find hFind hRoom).1
    have hOrder := (hTidy.of_holds hHolds).1
    refine (hOrder.tryStartGame_failsOnly
      (hEach ptr room hHolds)).bind fun made hStart => ?_
    rcases made with ⟨error, after, world⟩
    rcases Room.tryStartGame_of_ok hOrder hStart with
      ⟨session, hShape, hAfter⟩
    have hSet := hTidy.withSession hHolds hShape hAfter world
    cases error with
    | some code => exact Except.failsOnly_ok _
    | none =>
        exact hSet.broadcastRoomList_failsOnly.bind
          fun _ _ => Except.failsOnly_ok _

theorem Tidy.playerAction_failsOnly
    {action : Action}
    {amount : Option UInt32}
    (hTidy : lobby.Tidy)
    (hEach : lobby.Each (Room.FinishesOnly Kind)) :
    (lobby.playerAction player action amount
      shuffles).FailsOnly Kind := by
  unfold Lobby.playerAction findRoomByPlayer
  split
  · exact Except.failsOnly_ok _
  next ptr hFind =>
    refine (hTidy.roomOf_failsOnly hFind).bind
      fun room hRoom => ?_
    have hHolds := (hTidy.holds_of_find hFind hRoom).1
    refine ((hTidy.of_holds hHolds).1.onPlayerAction_failsOnly
      (hEach ptr room hHolds)).bind fun _ _ => ?_
    exact Except.failsOnly_ok _

/- Every call of a tidy lobby fails only as its games do. -/
theorem Tidy.step_failsOnly
    (hTidy : lobby.Tidy)
    (call : Call)
    (hEach : lobby.Each (Room.FinishesOnly Kind)) :
    (lobby.step call).FailsOnly Kind := by
  cases call with
  | createRoom name maxPlayers creator draws =>
      exact (hTidy.createRoom_failsOnly hEach).map
  | joinRoom roomId player draws =>
      exact (hTidy.joinRoom_failsOnly hEach).map
  | leaveRoom player shuffles =>
      exact hTidy.leaveRoom_failsOnly hEach
  | startGame player shuffles =>
      exact (hTidy.startGame_failsOnly hEach).map
  | playerAction player action amount shuffles =>
      exact hTidy.playerAction_failsOnly hEach

/-
  After any run, a call of the lobby that is handed enough
  shuffles fails only when a deck runs out.
-/
theorem Run.step_failsOnly
    {world : World}
    {registry : Option (List ConnId)}
    {trace : List (Lobby × Call)}
    (run : Run world registry trace lobby)
    (call : Call) :
    (lobby.step call).FailsOnly
      fun exn => exn = .deckEmpty ∨ exn = .notEnabled :=
  run.tidy.step_failsOnly call fun _ _ hHolds =>
    (run.tidy.of_holds hHolds).1.finishesOnly_deckEmpty
      (Or.inl rfl) (Or.inr rfl)

------------------------------------------------------------
-- A Crowded Room
------------------------------------------------------------

/- Connection 0 makes a room of 27 and 25 others join it. -/
def crowd : List Call :=
  [.createRoom "Table" 27 0 {}] ++
    (List.range' 1 25).map fun c => .joinRoom 1 c {}

/- The last seat is taken, which starts the game. -/
def lastSeat : Call :=
  .joinRoom 1 26 { starting := [.unshuffled] }

/- A room that was accepted deals itself out of cards. -/
theorem crowd_deckEmpty :
    ¬ ∀ world registry trace lobby call,
      Run world registry trace lobby →
        lobby.step call ≠ .error .deckEmpty := by
  intro hAll
  have hPasses : Transition.passes step
      (opening plainWorld none) crowd
      (fun _ lobby =>
        match lobby.step lastSeat with
        | .ok _ => false
        | .error exn => decide (exn = .deckEmpty)) = true := by
    decide +kernel
  rcases Transition.exists_run_of_passes hPasses with
    ⟨trace, lobby, run, hTest⟩
  split at hTest
  · cases hTest
  · rename_i exn hError
    rw [of_decide_eq_true hTest] at hError
    exact hAll _ _ _ _ _ run hError

end Lobby

end Progress

end Server

end Poker
