import AsciiPoker.Server.Lobby.Progress

/-
  Rooms of at most 23 seats.

  Whoever plays a game had a seat in its room, so that the
  deck serves every game of such a room to its river and no
  call of the lobby throws.

  Main declarations:
    * `Room.Fitting`, `Lobby.Fitting`, `Lobby.Run.fitting`
    * `Lobby.SmallRooms`, `Lobby.Fitting.finishesOnly`
-/

namespace Poker

namespace Server

open Protocol

------------------------------------------------------------
-- Games That Fit Their Rooms
------------------------------------------------------------

namespace Room

/- The game of the room began with a seat for each player. -/
def Fitting
    (room : Room) : Prop :=
  ∀ s ∈ room.gameSession,
    ∃ (table : Table) (trace : List (Config × Event)),
      table.Run trace ⟨s, .done⟩ ∧
        table.roster.players.length ≤ room.maxPlayers.toNat

variable {room after : Room}
variable {world world' : World}

/- A game that is made has the players of the room. -/
theorem Evolves.fitting
    (hEvolves : room.Evolves after world world')
    (hOrder : after.InOrder)
    (hSeats : after.maxPlayers = room.maxPlayers)
    (hFitting : room.Fitting) :
    after.Fitting := by
  intro u hu
  rw [hSeats]
  cases hEvolves with
  | rested hSession hTold =>
      rw [hSession] at hu
      exact hFitting u hu
  | called hSession hOk hFinish hKept hTold =>
      cases hKept u hu
      rcases hFitting _ hSession with
        ⟨table, trace, run, hFit⟩
      rcases GameSession.run_of_call hOk hFinish with
        ⟨later, rest⟩
      exact ⟨table, _, run.append rest, hFit⟩
  | @created told bankrolls session shuffles hNone hTold hLoad
      hFinish hSession hSent =>
      have hServes := hOrder.served session hSession
      rw [hSession] at hu
      cases hu
      rcases Config.finish_run hFinish with ⟨later, run, _⟩
      rw [makeSession_eq_create bankrolls hOrder.nodup
        hServes.enough] at run
      refine ⟨_, later, run, ?_⟩
      have hBounded := hOrder.bounded
      rw [hSeats] at hBounded
      simpa [Roster.players, roster] using hBounded

/- The deck serves the games of a small room. -/
theorem Fitting.finishesOnly
    {Kind : Exn → Prop}
    (hFitting : room.Fitting)
    (hSmall : room.maxPlayers.toNat ≤ 23)
    (hReady : Kind .notEnabled) :
    room.FinishesOnly Kind := by
  constructor
  · intro s hs
    rcases hFitting s hs with ⟨table, trace, run, hFit⟩
    exact ⟨table, trace, run, Table.finishesOnly_of_small
      (hFit.trans hSmall) hReady⟩
  · intro table hFit
    exact Table.finishesOnly_of_small (hFit.trans hSmall) hReady

end Room

------------------------------------------------------------
-- Lobbies
------------------------------------------------------------

namespace Lobby

/- Every game fits its room. -/
def Fitting
    (lobby : Lobby) : Prop :=
  lobby.Each Room.Fitting

/- No room has more seats than the deck serves. -/
def SmallRooms
    (lobby : Lobby) : Prop :=
  lobby.Each fun room => room.maxPlayers.toNat ≤ 23

variable {lobby left new : Lobby}
variable {ptr : RoomPtr}
variable {player : ConnId}
variable {shuffles : List Shuffle}

/- One room is written back with the seats it had. -/
theorem Rewrites.fitting
    {room after : Room}
    (hRewrites : lobby.Rewrites ptr room after new)
    (hSeats : ∀ {room : Room},
      new.heap[ptr]? = some room →
        ∃ old, lobby.heap[ptr]? = some old ∧
          room.maxPlayers = old.maxPlayers)
    (hFitting : lobby.Fitting) :
    new.Fitting := by
  refine hRewrites.each ?_ fun q other _ hOther =>
    hFitting q other hOther
  have hThere : new.heap[ptr]? = some after := by
    rw [hRewrites.heap]
    exact List.getElem?_set_self
      (List.getElem?_eq_some_iff.mp hRewrites.holds.2).1
  rcases hSeats hThere with ⟨old, hOld, hSame⟩
  rw [hRewrites.holds.2] at hOld
  cases hOld
  exact hRewrites.evolves.fitting hRewrites.inOrder hSame
    (hFitting ptr room hRewrites.holds)

/- No room gets more seats by an arrival. -/
theorem Arrives.maxPlayers_eq
    {q : RoomPtr}
    {room : Room}
    (hArrives : lobby.Arrives player shuffles q new)
    (hAt : new.heap[ptr]? = some room) :
    ∃ old, lobby.heap[ptr]? = some old ∧
      room.maxPlayers = old.maxPlayers := by
  cases hArrives with
  | @seated before after world new hHolds hOrder hNew hFree
      hAdd hTold =>
      rcases hTold with ⟨w, _, rfl⟩
      rw [insertPlayerRoom_of_free (by exact hFree)] at hAt
      rcases Room.addPlayer_of_ok hOrder hNew hAdd with
        ⟨hFalse, _⟩ | ⟨_, _, session, hShape⟩
      · cases hFalse
      · exact maxPlayers_of_set hHolds.2 (by rw [hShape]) hAt

/- Nor by what is played in it. -/
theorem Plays.maxPlayers_eq
    {room : Room}
    (hPlays : lobby.Plays new)
    (hTidy : lobby.Tidy)
    (hAt : new.heap[ptr]? = some room) :
    ∃ old, lobby.heap[ptr]? = some old ∧
      room.maxPlayers = old.maxPlayers := by
  cases hPlays with
  | started hHolds hStart hTold =>
      rcases hTold with ⟨w, _, rfl⟩
      rcases Room.tryStartGame_of_ok
          (hTidy.of_holds hHolds).1 hStart with
        ⟨session, hShape, _⟩
      exact maxPlayers_of_set hHolds.2 (by rw [hShape]) hAt
  | acted hHolds hAct =>
      rcases Room.onPlayerAction_of_ok
          (hTidy.of_holds hHolds).1 hAct with
        ⟨session, hShape, _⟩
      exact maxPlayers_of_set hHolds.2 (by rw [hShape]) hAt

/- Whoever leaves leaves the game fitting. -/
theorem Departs.fitting
    (hDeparts : lobby.Departs player shuffles left)
    (hTidy : lobby.Tidy)
    (hFitting : lobby.Fitting) :
    left.Fitting := by
  rcases hDeparts.rewrites hTidy with
    ⟨_, rfl⟩ | ⟨ptr, room, after, hRewrites, _, _⟩
  · exact hFitting
  · exact hRewrites.fitting (hDeparts.maxPlayers_eq hTidy)
      hFitting

/- Who comes may be the one it starts with. -/
theorem Arrives.fitting
    (hArrives : lobby.Arrives player shuffles ptr new)
    (hFitting : lobby.Fitting) :
    new.Fitting := by
  rcases hArrives.rewrites with
    ⟨room, after, hRewrites, _, _, _⟩
  exact hRewrites.fitting hArrives.maxPlayers_eq hFitting

/- Every call leaves the games fitting their rooms. -/
theorem Fitting.step
    {call : Call}
    (hFitting : lobby.Fitting)
    (hTidy : lobby.Tidy)
    (hOk : lobby.step call = .ok new) :
    new.Fitting := by
  cases moves_of_ok hTidy hOk with
  | nothing => exact hFitting
  | leaves hDeparts => exact hDeparts.fitting hTidy hFitting
  | enters hDeparts hArrives =>
      exact hArrives.fitting (hDeparts.fitting hTidy hFitting)
  | @makes name maxPlayers player draws left new hDeparts
      hArrives =>
      refine hArrives.fitting (Each.makeRoom
        (hDeparts.fitting hTidy hFitting) ?_ ?_)
      · intro q hq
        rcases (hDeparts.tidy hTidy).kept q hq with
          ⟨_, hAt, _⟩
        exact (List.getElem?_eq_some_iff.mp hAt).1
      · intro s hs
        cases hs
  | plays hPlays =>
      rcases hPlays.rewrites hTidy with
        ⟨ptr, room, after, hRewrites, _⟩
      exact hRewrites.fitting (hPlays.maxPlayers_eq hTidy)
        hFitting

/- There is no room at first. -/
theorem opening_fitting
    (world : World)
    (registry : Option (List ConnId)) :
    (opening world registry).Fitting := by
  rintro ptr room ⟨hMem, _⟩
  cases hMem

/- In small rooms all that a call can lack are shuffles. -/
theorem Fitting.finishesOnly
    {Kind : Exn → Prop}
    (hFitting : lobby.Fitting)
    (hSmall : lobby.SmallRooms)
    (hReady : Kind .notEnabled) :
    lobby.Each (Room.FinishesOnly Kind) :=
  fun ptr room hHolds => (hFitting ptr room hHolds).finishesOnly
    (hSmall ptr room hHolds) hReady

end Lobby

end Server

end Poker
