import AsciiPoker.Server.Lobby.Balances
import AsciiPoker.Server.Lobby.Consistency

/-
  The stored balances of the players of a lobby.

  While seated players have accounts of their own, the
  repository holds for each of them what the session of his
  room wrote last.  In a hand that is what he has and has put
  in, less his blind; when he leaves it is his stack.

  Main declarations:
    * `Lobby.OwnAccounts`
    * `Lobby.Run.attached`, `Lobby.Run.stored`
    * `Lobby.Departs.balance`
    * `Lobby.Run.balances`
-/

namespace Poker

namespace Server

open Protocol

------------------------------------------------------------
-- Rooms of a Lobby
------------------------------------------------------------

namespace Lobby

/- Everybody who sits in a room. -/
def seated
    (lobby : Lobby) : List ConnId :=
  lobby.rooms.flatMap fun ptr =>
    match lobby.heap[ptr]? with
    | none => []
    | some room => room.players

/- Seated players have accounts of their own. -/
def OwnAccounts
    (lobby : Lobby) : Prop :=
  lobby.world.OwnAccounts lobby.seated

/- It can be checked of a lobby. -/
instance
    (lobby : Lobby) :
    Decidable lobby.OwnAccounts :=
  inferInstanceAs (Decidable (World.OwnAccounts _ _))

/- Every game writes to the repository by these names. -/
def Attached
    (lobby : Lobby) : Prop :=
  lobby.Each fun room => room.Attached lobby.world

/- And has stored what its players have. -/
def Stored
    (lobby : Lobby) : Prop :=
  lobby.Each fun room => room.Stored lobby.world

variable {lobby left new : Lobby}
variable {ptr q : RoomPtr}
variable {room after other : Room}
variable {player c p : ConnId}
variable {shuffles : List Shuffle}

/- By the rooms that are listed. -/
theorem mem_seated :
    c ∈ lobby.seated ↔
      ∃ ptr room, lobby.Holds ptr room ∧
        c ∈ room.players := by
  unfold seated Holds
  rw [List.mem_flatMap]
  constructor
  · rintro ⟨ptr, hPtr, hc⟩
    cases hAt : lobby.heap[ptr]? with
    | none =>
        rw [hAt] at hc
        cases hc
    | some room =>
        rw [hAt] at hc
        exact ⟨ptr, room, ⟨hPtr, hAt⟩, hc⟩
  · rintro ⟨ptr, room, ⟨hPtr, hAt⟩, hc⟩
    refine ⟨ptr, hPtr, ?_⟩
    rw [hAt]
    exact hc

/- Players of a room have accounts of their own. -/
theorem OwnAccounts.of_holds
    (hOwn : lobby.OwnAccounts)
    (hHolds : lobby.Holds ptr room) :
    lobby.world.OwnAccounts room.players :=
  fun c hc d hd => hOwn c (mem_seated.mpr ⟨ptr, room, hHolds, hc⟩)
    d (mem_seated.mpr ⟨ptr, room, hHolds, hd⟩)

/- Players of two rooms have different accounts. -/
theorem Tidy.apart
    (hTidy : lobby.Tidy)
    (hOwn : lobby.OwnAccounts)
    (hHolds : lobby.Holds ptr room)
    (hOther : lobby.Holds q other)
    (hNe : q ≠ ptr)
    (hc : c ∈ room.players)
    (hp : p ∈ other.players) :
    noCase (lobby.world.names c) ≠
      noCase (lobby.world.names p) := by
  intro hSame
  have hEq := hOwn c (mem_seated.mpr ⟨ptr, room, hHolds, hc⟩)
    p (mem_seated.mpr ⟨q, other, hOther, hp⟩) hSame
  subst hEq
  exact hTidy.disjoint hHolds hOther hNe hp hc

/- A new session is made for this world. -/
theorem Rewrites.attached
    (hRewrites : lobby.Rewrites ptr room after new)
    (hAttached : lobby.Attached) :
    new.Attached := by
  have hFollows := hRewrites.evolves.follows
  refine hRewrites.each ?_ ?_
  · exact hRewrites.evolves.attached
      (hAttached ptr room hRewrites.holds)
  · intro q other hNe hOther s hs
    have hThere := hAttached q other hOther s hs
    exact ⟨hThere.names.trans hFollows.names.symm,
      hThere.hasRepository.trans hFollows.repository.symm⟩

/- The other rooms play for other accounts. -/
theorem Rewrites.stored
    (hRewrites : lobby.Rewrites ptr room after new)
    (hReliable : lobby.world.Reliable)
    (hAttached : lobby.Attached)
    (hOwn : lobby.world.OwnAccounts after.players)
    (hApart : ∀ q other, q ≠ ptr → lobby.Holds q other →
      other.InOrder ∧
        ∀ p ∈ other.players,
          ∀ c ∈ room.players ++ after.players,
            noCase (lobby.world.names c) ≠
              noCase (lobby.world.names p))
    (hStored : lobby.Stored) :
    new.Stored := by
  have hHere := hAttached ptr room hRewrites.holds
  refine hRewrites.each ?_ ?_
  · exact hRewrites.evolves.stored hRewrites.inOrder
      hReliable hOwn (hStored ptr room hRewrites.holds)
  · intro q other hNe hOther s hs
    have hSpares := hRewrites.evolves.spares hRewrites.before
      hRewrites.inOrder hReliable hHere
    refine (hStored q other hOther s hs).spared
      (hAttached q other hOther s hs) hSpares ?_
    rcases hApart q other hNe hOther with ⟨hOrder, hNames⟩
    rw [(hOrder.served s hs).players_eq]
    exact hNames

/- A room that stays in its place is held. -/
theorem Rewrites.holds_new
    (hRewrites : lobby.Rewrites ptr room after new)
    (hRooms : new.rooms = lobby.rooms) :
    new.Holds ptr after ∧
      ∀ q other, q ≠ ptr →
        lobby.Holds q other → new.Holds q other := by
  have hLt := (List.getElem?_eq_some_iff.mp
    hRewrites.holds.2).1
  unfold Holds
  rw [hRooms, hRewrites.heap]
  refine ⟨⟨hRewrites.holds.1, List.getElem?_set_self hLt⟩, ?_⟩
  intro q other hNe hOther
  rw [List.getElem?_set_ne (Ne.symm hNe)]
  exact hOther

/- A room that gets nobody new writes to its own accounts. -/
theorem Rewrites.stored_of_subset
    (hRewrites : lobby.Rewrites ptr room after new)
    (hPlayers : after.players ⊆ room.players)
    (hTidy : lobby.Tidy)
    (hReliable : lobby.world.Reliable)
    (hAttached : lobby.Attached)
    (hOwn : lobby.OwnAccounts)
    (hStored : lobby.Stored) :
    new.Stored := by
  have hHere := hOwn.of_holds hRewrites.holds
  refine hRewrites.stored hReliable hAttached ?_ ?_ hStored
  · exact fun c hc d hd =>
      hHere c (hPlayers hc) d (hPlayers hd)
  · intro q other hNe hOther
    refine ⟨(hTidy.of_holds hOther).1, fun p hp c hc => ?_⟩
    have hMem : c ∈ room.players := by
      rcases List.mem_append.mp hc with hOld | hNew
      · exact hOld
      · exact hPlayers hNew
    exact hTidy.apart hOwn hRewrites.holds hOther hNe hMem hp

/- A room that gets a player writes to its new accounts. -/
theorem Rewrites.stored_of_superset
    (hRewrites : lobby.Rewrites ptr room after new)
    (hRooms : new.rooms = lobby.rooms)
    (hPlayers : room.players ⊆ after.players)
    (hTidy : new.Tidy)
    (hReliable : lobby.world.Reliable)
    (hAttached : lobby.Attached)
    (hOwn : new.OwnAccounts)
    (hStored : lobby.Stored) :
    new.Stored := by
  rcases hRewrites.holds_new hRooms with ⟨hHolds, hOthers⟩
  have hNames := hRewrites.evolves.follows.names
  have hHere := hOwn.of_holds hHolds
  unfold World.OwnAccounts at hHere
  rw [hNames] at hHere
  refine hRewrites.stored hReliable hAttached hHere ?_
    hStored
  intro q other hNe hOther
  have hThere := hOthers q other hNe hOther
  refine ⟨(hTidy.of_holds hThere).1, fun p hp c hc => ?_⟩
  have hMem : c ∈ after.players := by
    rcases List.mem_append.mp hc with hOld | hNew
    · exact hPlayers hOld
    · exact hNew
  have hApart := hTidy.apart hOwn hHolds hThere hNe hMem hp
  rw [hNames] at hApart
  exact hApart

------------------------------------------------------------
-- Calls
------------------------------------------------------------

/- A departure is a rewriting, or nothing. -/
theorem Departs.attached
    (hDeparts : lobby.Departs player shuffles left)
    (hTidy : lobby.Tidy)
    (hAttached : lobby.Attached) :
    lobby.world.Follows left.world ∧ left.Attached := by
  rcases hDeparts.rewrites hTidy with
    ⟨_, rfl⟩ | ⟨ptr, room, after, hRewrites, _, _⟩
  · exact ⟨World.Follows.refl _, hAttached⟩
  · exact ⟨hRewrites.evolves.follows,
      hRewrites.attached hAttached⟩

/- What is stored for the leaver, nobody else plays for. -/
theorem Departs.stored
    (hDeparts : lobby.Departs player shuffles left)
    (hTidy : lobby.Tidy)
    (hReliable : lobby.world.Reliable)
    (hAttached : lobby.Attached)
    (hOwn : lobby.OwnAccounts)
    (hStored : lobby.Stored) :
    left.Stored := by
  rcases hDeparts.rewrites hTidy with
    ⟨_, rfl⟩ | ⟨ptr, room, after, hRewrites, _, hPlayers⟩
  · exact hStored
  · refine hRewrites.stored_of_subset ?_ hTidy hReliable
      hAttached hOwn hStored
    rw [hPlayers]
    exact List.erase_subset

/- A game that starts stores what it loaded. -/
theorem Arrives.stored
    (hArrives : lobby.Arrives player shuffles ptr new)
    (hTidy : new.Tidy)
    (hReliable : lobby.world.Reliable)
    (hAttached : lobby.Attached)
    (hOwn : new.OwnAccounts)
    (hStored : lobby.Stored) :
    new.Stored := by
  rcases hArrives.rewrites with
    ⟨room, after, hRewrites, hRooms, _, hPlayers⟩
  refine hRewrites.stored_of_superset hRooms ?_ hTidy
    hReliable hAttached hOwn hStored
  rw [hPlayers]
  exact List.subset_append_left _ _

/- A room without a session has nothing to keep. -/
theorem Each.makeFreshRoom
    {P : GameSession → Prop}
    {name : String}
    {maxPlayers : UInt8}
    (hTidy : lobby.Tidy)
    (hEach : lobby.Each fun room => ∀ s ∈ room.gameSession, P s) :
    (lobby.makeRoom name maxPlayers player).Each
      fun room => ∀ s ∈ room.gameSession, P s := by
  refine hEach.makeRoom ?_ (by simp [freshRoom])
  intro q hq
  rcases hTidy.kept q hq with ⟨_, hAt, _⟩
  exact (List.getElem?_eq_some_iff.mp hAt).1

/- One case for each kind of call. -/
theorem Moves.attached
    (hMoves : lobby.Moves new)
    (hTidy : lobby.Tidy)
    (hAttached : lobby.Attached) :
    lobby.world.Follows new.world ∧ new.Attached := by
  cases hMoves with
  | nothing => exact ⟨World.Follows.refl _, hAttached⟩
  | leaves hDeparts =>
      exact hDeparts.attached hTidy hAttached
  | enters hDeparts hArrives =>
      rcases hDeparts.attached hTidy hAttached with
        ⟨hFollows, hLeft⟩
      rcases hArrives.rewrites with
        ⟨room, after, hRewrites, _, _, _⟩
      exact ⟨hFollows.trans hRewrites.evolves.follows,
        hRewrites.attached hLeft⟩
  | @makes name maxPlayers player draws left new hDeparts
      hArrives =>
      rcases hDeparts.attached hTidy hAttached with
        ⟨hFollows, hLeft⟩
      have hMade : (left.makeRoom name maxPlayers
          player).Attached :=
        Each.makeFreshRoom (hDeparts.tidy hTidy) hLeft
      rcases hArrives.rewrites with
        ⟨room, after, hRewrites, _, _, _⟩
      exact ⟨hFollows.trans hRewrites.evolves.follows,
        hRewrites.attached hMade⟩
  | plays hPlays =>
      rcases hPlays.rewrites hTidy with
        ⟨ptr, room, after, hRewrites, _⟩
      exact ⟨hRewrites.evolves.follows,
        hRewrites.attached hAttached⟩

/- Here too. -/
theorem Moves.stored
    (hMoves : lobby.Moves new)
    (hTidy : lobby.Tidy)
    (hTidy' : new.Tidy)
    (hReliable : lobby.world.Reliable)
    (hAttached : lobby.Attached)
    (hOwn : lobby.OwnAccounts)
    (hOwn' : new.OwnAccounts)
    (hStored : lobby.Stored) :
    new.Stored := by
  cases hMoves with
  | nothing => exact hStored
  | leaves hDeparts =>
      exact hDeparts.stored hTidy hReliable hAttached hOwn
        hStored
  | enters hDeparts hArrives =>
      rcases hDeparts.attached hTidy hAttached with
        ⟨hFollows, hLeft⟩
      have hThere := hDeparts.stored hTidy hReliable
        hAttached hOwn hStored
      exact hArrives.stored hTidy'
        (hFollows.reliable hReliable) hLeft hOwn'
        hThere
  | @makes name maxPlayers player draws left new hDeparts
      hArrives =>
      rcases hDeparts.attached hTidy hAttached with
        ⟨hFollows, hLeft⟩
      have hThere := hDeparts.stored hTidy hReliable
        hAttached hOwn hStored
      have hMade : (left.makeRoom name maxPlayers
          player).Attached :=
        Each.makeFreshRoom (hDeparts.tidy hTidy) hLeft
      have hMadeStored : (left.makeRoom name maxPlayers
          player).Stored :=
        Each.makeFreshRoom (hDeparts.tidy hTidy) hThere
      exact hArrives.stored hTidy'
        (hFollows.reliable hReliable) hMade hOwn'
        hMadeStored
  | plays hPlays =>
      rcases hPlays.rewrites hTidy with
        ⟨ptr, room, after, hRewrites, hPlayers⟩
      refine hRewrites.stored_of_subset ?_ hTidy hReliable
        hAttached hOwn hStored
      rw [hPlayers]
      exact List.Subset.refl _

/- A player who leaves a session has his stack stored. -/
theorem Departs.balance
    {s : GameSession}
    (hDeparts : lobby.Departs player shuffles left)
    (hTidy : lobby.Tidy)
    (hReliable : lobby.world.Reliable)
    (hAttached : lobby.Attached)
    (hHolds : lobby.Holds ptr room)
    (hSession : room.gameSession = some s)
    (hMem : player ∈ room.players)
    (hAlone : ∀ q ∈ room.players,
      noCase (lobby.world.names q) =
        noCase (lobby.world.names player) → q = player)
    (hAccount : (lobby.world.balance
      (lobby.world.names player)).isSome) :
    left.world.balance (lobby.world.names player) =
        some (s.chips.get player) ∧
      ∀ room' t, left.heap[ptr]? = some room' →
        room'.gameSession = some t →
        Config.Gone ⟨t, .done⟩
          (noCase (lobby.world.names player)) := by
  have hFind := (hTidy.find_iff hHolds player).mpr hMem
  cases hDeparts with
  | outside hFree =>
      rw [hFree] at hFind
      cases hFind
  | @leaving ptr' room' after removed world left hHolds'
      hMem' hRemove hTold =>
      have hFind' := (hTidy.find_iff hHolds' player).mpr hMem'
      rw [hFind] at hFind'
      cases hFind'
      have hSame := hHolds'.2
      rw [hHolds.2] at hSame
      cases hSame
      have hOrder := (hTidy.of_holds hHolds).1
      have hServes := hOrder.served s hSession
      rcases hAttached ptr room hHolds s hSession with
        ⟨hNames, hHas⟩
      rcases hServes.played with ⟨table, trace, played⟩
      rcases Room.removePlayer_calls hOrder hMem hSession
          hRemove with
        ⟨called, pending, t, hOk, hFinish, hKept, hSent⟩
      rw [← hServes.players_eq] at hMem hAlone
      have hMapped := hServes.mapped player (by
        rw [← hServes.players_eq]
        exact hMem)
      have hOwn : ∀ q ∈ s.players,
          s.account q = s.account player → q = player := by
        unfold GameSession.account
        rw [hNames]
        exact hAlone
      rcases Config.leaving_of_removePlayer played.seated
          (hHas.trans hReliable.repository) hMapped hMem hOwn
          hOk with
        ⟨hLeaving, hAccounts⟩
      rcases Config.finish_run hFinish with ⟨later, run, _⟩
      rcases hLeaving.run run with ⟨hGone, new, hLogs, hLast⟩
      rcases Config.logs_of_ok
          (hHas.trans hReliable.repository) hOk with
        ⟨first, _, hFirst⟩
      have hPlayer : s.account player =
          noCase (lobby.world.names player) := by
        unfold GameSession.account
        rw [hNames]
      rw [hAccounts, hPlayer] at hGone hLast
      rcases hTold with ⟨w, hTold, rfl⟩
      rcases dropIfEmpty_frame
          { lobby.setRoom ptr after world with
            playerRooms := lobby.playerRooms.erase player }
          ptr after with
        ⟨hHeap, _, hWorld⟩
      rw [hWorld] at hTold
      constructor
      · rcases Option.isSome_iff_exists.mp hAccount with
          ⟨old, hOld⟩
        dsimp only
        rw [hTold.balance]
        dsimp only [setRoom]
        rw [hSent.balance,
          World.performSince_balance (hFirst.trans hLogs)
            hReliable,
          hOld, List.getLast?_append, hLast]
        rfl
      · intro room' u hAt hu
        dsimp only at hAt
        rw [hHeap] at hAt
        dsimp only [setRoom] at hAt
        rw [List.getElem?_set_self
          (List.getElem?_eq_some_iff.mp hHolds.2).1] at hAt
        cases hAt
        cases hKept u hu
        exact hGone

------------------------------------------------------------
-- Runs
------------------------------------------------------------

section Runs

variable {world : World}
variable {registry : Option (List ConnId)}
variable {trace : List (Lobby × Call)}

/- Sessions have the names and the repository of the world. -/
theorem Run.attached
    (run : Run world registry trace lobby) :
    world.Follows lobby.world ∧ lobby.Attached := by
  have hKeep : ∀ (lobby : Lobby) (call : Call) (new : Lobby),
      (lobby.Tidy ∧ world.Follows lobby.world ∧
        lobby.Attached) →
      lobby.step call = .ok new →
      (new.Tidy ∧ world.Follows new.world ∧
        new.Attached) := by
    rintro lobby call new ⟨hTidy, hFollows, hAttached⟩ hOk
    rcases (moves_of_ok hTidy hOk).attached hTidy
        hAttached with
      ⟨hNext, hNew⟩
    exact ⟨hTidy.step hOk, hFollows.trans hNext, hNew⟩
  have hStart : (opening world registry).Attached := by
    rintro ptr room ⟨hMem, _⟩
    cases hMem
  exact (Transition.Run.invariant_of_step hKeep run
    ⟨opening_tidy world registry, World.Follows.refl _,
      hStart⟩).2

/- The repository holds what was saved last of everybody. -/
theorem Run.stored
    (run : Run world registry trace lobby)
    (hReliable : world.Reliable)
    (hOwn : ∀ x ∈ trace, x.1.OwnAccounts)
    (hEnd : lobby.OwnAccounts) :
    lobby.Stored := by
  have hKeep : ∀ (lobby : Lobby) (call : Call) (new : Lobby),
      (lobby.Tidy ∧ world.Follows lobby.world ∧
        lobby.Attached ∧
        (lobby.OwnAccounts → lobby.Stored)) →
      lobby.OwnAccounts →
      lobby.step call = .ok new →
      (new.Tidy ∧ world.Follows new.world ∧
        new.Attached ∧ (new.OwnAccounts → new.Stored)) := by
    rintro lobby call new ⟨hTidy, hFollows, hAttached, hStored⟩
      hHere hOk
    have hMoves := moves_of_ok hTidy hOk
    rcases hMoves.attached hTidy hAttached with
      ⟨hNext, hNew⟩
    refine ⟨hTidy.step hOk, hFollows.trans hNext, hNew,
      fun hThere => ?_⟩
    exact hMoves.stored hTidy (hTidy.step hOk)
      (hFollows.reliable hReliable) hAttached hHere
      hThere (hStored hHere)
  have hAttached : (opening world registry).Attached := by
    rintro ptr room ⟨hMem, _⟩
    cases hMem
  have hStored : (opening world registry).Stored := by
    rintro ptr room ⟨hMem, _⟩
    cases hMem
  exact (Transition.Run.invariant hKeep run hOwn
    ⟨opening_tidy world registry, World.Follows.refl _,
      hAttached,
      fun _ => hStored⟩).2.2.2 hEnd

end Runs

------------------------------------------------------------
-- Balances in a Hand and on Leaving
------------------------------------------------------------

/-
  Of everybody at the table is stored what he has and has put
  in, less the blind he posted in this hand.
-/
def Balances
    (lobby : Lobby)
    (s : GameSession)
    (history : List (Config × Event)) : Prop :=
  ∀ p ∈ s.players, ∃ balance,
    lobby.accountChipsFor (s.names p) = some balance ∧
      balance.toNat + (blindIn history p).toNat =
        (s.chips.get p).toNat +
          (s.totalContributed.get p).toNat

/-
  A call takes a player out of the room he is in.  A lost
  connection is a call of `leave_room`.
-/
inductive Leaves
    (lobby : Lobby)
    (player : ConnId)
    (left : Lobby) : Call → Prop
  | byLeaving
      {shuffles : List Shuffle}
      (hLeave : lobby.leaveRoom player shuffles = .ok left) :
      Leaves lobby player left (.leaveRoom player shuffles)
  | byCreating
      {name : String}
      {maxPlayers : UInt8}
      {draws : Draws}
      (hLeave : lobby.leavePresentRoom player draws.leaving =
        .ok left) :
      Leaves lobby player left
        (.createRoom name maxPlayers player draws)
  | byJoining
      {roomId : UInt64}
      {draws : Draws}
      (hLeave : lobby.leavePresentRoom player draws.leaving =
        .ok left) :
      Leaves lobby player left (.joinRoom roomId player draws)

/- Whichever call it was that took him out. -/
theorem Leaves.departs
    {call : Call}
    (hTidy : lobby.Tidy)
    (hLeaves : lobby.Leaves player left call) :
    ∃ shuffles, lobby.Departs player shuffles left := by
  cases hLeaves with
  | byLeaving hLeave =>
      exact ⟨_, departs_of_leaveRoom hTidy hLeave⟩
  | byCreating hLeave =>
      exact ⟨_, departs_of_leavePresentRoom hTidy hLeave⟩
  | byJoining hLeave =>
      exact ⟨_, departs_of_leavePresentRoom hTidy hLeave⟩

/-
  The stack of a player who leaves the room at `ptr` is
  stored, and what is left of its session does not write to
  his account.
-/
def SettlesLeaver
    (lobby left : Lobby)
    (ptr : RoomPtr)
    (s : GameSession)
    (player : ConnId) : Prop :=
  left.accountChipsFor (lobby.world.names player) =
      some (s.chips.get player) ∧
    ∀ room t later d,
      left.heap[ptr]? = some room →
      room.gameSession = some t →
      Transition.Run Config.step ⟨t, .done⟩ later d →
      d.session.written
          (noCase (lobby.world.names player)) =
        t.written (noCase (lobby.world.names player))

section Tracking

variable {world : World}
variable {registry : Option (List ConnId)}
variable {trace : List (Lobby × Call)}
variable {s : GameSession}

/- What he has is stored when he is gone. -/
theorem Run.settlesLeaver
    {call : Call}
    (run : Run world registry trace lobby)
    (hReliable : world.Reliable)
    (hOwn : ∀ x ∈ trace, x.1.OwnAccounts)
    (hEnd : lobby.OwnAccounts)
    (hHolds : lobby.Holds ptr room)
    (hSession : room.gameSession = some s)
    (hMem : player ∈ room.players)
    (hLeaves : lobby.Leaves player left call) :
    lobby.SettlesLeaver left ptr s player := by
  have hTidy := run.tidy
  rcases run.attached with ⟨hFollows, hAttached⟩
  have hStored := run.stored hReliable hOwn hEnd ptr room
    hHolds s hSession
  have hServes := (hTidy.of_holds hHolds).1.served s hSession
  have hNames := (hAttached ptr room hHolds s hSession).names
  have hSeat : player ∈ s.players := by
    rw [hServes.players_eq]
    exact hMem
  have hAccount : (lobby.world.balance
      (lobby.world.names player)).isSome := by
    rcases hStored.balances player hSeat with
      ⟨hSome, hBalance⟩
    rw [← hNames, hBalance]
    exact hSome
  have hAlone : ∀ q ∈ room.players,
      noCase (lobby.world.names q) =
        noCase (lobby.world.names player) → q = player :=
    fun q hq hSame =>
      hEnd.of_holds hHolds q hq player hMem hSame
  rcases hLeaves.departs hTidy with ⟨shuffles, hDeparts⟩
  rcases hDeparts.balance hTidy
      (hFollows.reliable hReliable) hAttached hHolds
      hSession hMem hAlone hAccount with
    ⟨hBalance, hGone⟩
  refine ⟨hBalance, fun after t later d hAt hThere rest => ?_⟩
  exact ((hGone after t hAt hThere).run rest).2

/- So it is while a hand is going on. -/
theorem Run.balances_inProgress
    {table : Table}
    {history : List (Config × Event)}
    (run : Run world registry trace lobby)
    (hReliable : world.Reliable)
    (hOwn : ∀ x ∈ trace, x.1.OwnAccounts)
    (hEnd : lobby.OwnAccounts)
    (hHolds : lobby.Holds ptr room)
    (hSession : room.gameSession = some s)
    (hPlayed : s.PlayedBy table history)
    (hProgress : s.InProgress) :
    lobby.Balances s history := by
  have hStored := run.stored hReliable hOwn hEnd ptr room
    hHolds s hSession
  have hTracked := hPlayed.run.tracked hPlayed.hasRepository
    hPlayed.ownAccounts
  intro p hp
  rcases hTracked.recorded (by simp) hProgress p hp with
    ⟨_, balance, hSaved, hBalance⟩
  refine ⟨balance, ?_, hBalance⟩
  rw [← hSaved]
  exact (hStored.balances p hp).2

/-
  Stored balances track the table.  A session in a lobby has
  a history, and by any history it has, its players' balances
  are right while a hand is in progress; a player who leaves
  has his stack stored for good.
-/
theorem Run.balances
    (run : Run world registry trace lobby)
    (hReliable : world.Reliable)
    (hOwn : ∀ x ∈ trace, x.1.OwnAccounts)
    (hEnd : lobby.OwnAccounts)
    (hHolds : lobby.Holds ptr room)
    (hSession : room.gameSession = some s) :
    (∃ table history, s.PlayedBy table history) ∧
      (∀ table history, s.PlayedBy table history →
        s.InProgress → lobby.Balances s history) ∧
      ∀ player ∈ room.players, ∀ call left,
        lobby.Leaves player left call →
          lobby.SettlesLeaver left ptr s player := by
  refine ⟨?_, ?_, ?_⟩
  · exact (run.stored hReliable hOwn hEnd ptr room hHolds s
      hSession).played
  · intro table history hPlayed hProgress
    exact run.balances_inProgress hReliable hOwn hEnd hHolds
      hSession hPlayed hProgress
  · intro player hMem call left hLeaves
    exact run.settlesLeaver hReliable hOwn hEnd hHolds
      hSession hMem hLeaves

end Tracking

/- Connections 0, 1 and 2 with accounts of 1000 chips. -/
def storedWorld : World where
  names := fun c => toString c
  repository := some
    { users := [⟨"0", "", 1000⟩, ⟨"1", "", 1000⟩,
        ⟨"2", "", 1000⟩] }

/- A hand is in progress at a full table. -/
theorem storedWorld_balances :
    ∃ trace lobby room s table history,
      Run storedWorld (some [0, 1]) trace lobby ∧
        lobby.Holds 0 room ∧
        room.gameSession = some s ∧
        s.PlayedBy table history ∧
        lobby.Balances s history := by
  have hPasses : Transition.passes step
      (opening storedWorld (some [0, 1])) fullTable
      (fun trace lobby =>
        decide ((∀ x ∈ trace, x.1.OwnAccounts) ∧
          lobby.OwnAccounts ∧ 0 ∈ lobby.rooms) &&
        lobby.heap[0]?.any fun room =>
          room.gameSession.any fun s =>
            decide s.InProgress) = true := by
    decide +kernel
  rcases Transition.exists_run_of_passes hPasses with
    ⟨trace, lobby, run, hTest⟩
  rw [Bool.and_eq_true, decide_eq_true_eq] at hTest
  rcases hTest with ⟨⟨hOwn, hEnd, hListed⟩, hRoom⟩
  rcases (Option.any_eq_true _ _).mp hRoom with
    ⟨room, hAt, hGame⟩
  rcases (Option.any_eq_true _ _).mp hGame with
    ⟨s, hSession, hProgress⟩
  have hHolds : lobby.Holds 0 room := ⟨hListed, hAt⟩
  rcases Run.balances run (by decide) hOwn hEnd hHolds
      hSession with
    ⟨⟨table, history, hPlayed⟩, hHand, _⟩
  exact ⟨trace, lobby, room, s, table, history, run, hHolds,
    hSession, hPlayed, hHand table history hPlayed
      (of_decide_eq_true hProgress)⟩

end Lobby

end Server

end Poker
