import AsciiPoker.Library.Transition
import AsciiPoker.Server.GameSession.Operations

/-
  A session as a machine.

  A configuration is a session with the call that is left to
  run.  `proceed` runs the body of that call; the calls of
  the room, `apply_action` and `remove_player`, come in when
  nothing is left to run.  A call that throws has no
  successor.  Each `proceed` carries the shuffle that
  `start` would draw, so that a run ranges over all of them.

  A room destroys a session that has fewer than two players
  left, so its calls need two.

  Main declarations:
    * `Roster`, `GameSession.create`
    * `Config`, `Event`, `Config.step`
    * `Table`, `Table.Run`
-/

------------------------------------------------------------
-- Creating a Session
------------------------------------------------------------

namespace Poker

namespace Server

open Protocol

/-
  The players and connections that `Room::start_game` hands
  to a new session: one player for each connection.
-/
structure Roster where
  seats : List (ConnId × PlayerId)
  connections_nodup : (seats.map Prod.fst).Nodup
  players_nodup : (seats.map Prod.snd).Nodup
  two_le_length : 2 ≤ seats.length

namespace Roster

/- The argument `players` of the constructor. -/
def players
    (roster : Roster) : List PlayerId :=
  roster.seats.map Prod.snd

/- The argument `connection_map` of the constructor. -/
def connectionMap
    (roster : Roster) : KeyMap ConnId PlayerId :=
  roster.seats.foldl
    (fun m seat => m.set seat.1 seat.2) .empty

end Roster

/- What a session is constructed from. -/
structure Table where
  roster : Roster
  names : PlayerId → String
  hasRepository : Bool
  bankrolls : KeyMap String UInt32

namespace Table

/- `GameSession::GameSession`. -/
def create
    (table : Table) : GameSession where
  hasRepository := table.hasRepository
  bankrolls := table.bankrolls
  names := table.names
  players := table.roster.players
  connectionMap := table.roster.connectionMap

/- The bankroll a player sits down with. -/
def buyIn
    (table : Table)
    (p : PlayerId) : UInt32 :=
  (table.bankrolls.find (table.names p)).getD STARTING_CHIPS

/- The starting bankrolls together. -/
def buyIns
    (table : Table) : Nat :=
  (table.roster.players.map
    fun p => (table.buyIn p).toNat).sum

end Table

------------------------------------------------------------
-- The Machine
------------------------------------------------------------

/- A session and the call that is left to run. -/
structure Config where
  session : GameSession
  pending : Pending

inductive Event
  | proceed (shuffle : Shuffle)
  | applyAction
      (connection : ConnId)
      (action : Action)
      (amount : Option UInt32)
  | removePlayer (connection : ConnId)

namespace GameSession

/- Run the body of a pending call. -/
def body
    (s : GameSession)
    (shuffle : Shuffle) :
    Pending → Except Exn (GameSession × Pending)
| .done => .error .notEnabled
| .start => s.start shuffle
| .askCurrentPlayer => s.askCurrentPlayer
| .nextPhase => s.nextPhase
| .doShowdown => s.doShowdown
| .handleSingleWinner =>
    .ok (s, .awardAllPots .tryStartNewHand)
| .awardAllPots next =>
    match s.awardAllPots with
    | .error exn => .error exn
    | .ok s => .ok (s, .resume next)
| .resume .tryStartNewHand => .ok s.tryStartNewHand
| .resume (.finishRemoval leaver) =>
    s.finishRemoval leaver

end GameSession

namespace Config

/- The configuration of a function's result. -/
def ofResult :
    Except Exn (GameSession × Pending) → Except Exn Config
| .error exn => .error exn
| .ok (session, pending) => .ok ⟨session, pending⟩

@[simp] theorem ofResult_eq_ok
    {r : Except Exn (GameSession × Pending)}
    {c : Config} :
    ofResult r = .ok c ↔ r = .ok (c.session, c.pending) := by
  rcases r with exn | ⟨session, pending⟩
  · simp [ofResult]
  · cases c
    simp [ofResult]

/- Whether the room may call the session now. -/
def Idle
    (c : Config) : Prop :=
  c.pending = .done ∧ c.session.hasEnoughPlayers

instance (c : Config) : Decidable c.Idle :=
  inferInstanceAs (Decidable (_ ∧ _))

/- One step of the machine. -/
def step
    (c : Config) : Event → Except Exn Config
| .proceed shuffle =>
    ofResult (c.session.body shuffle c.pending)
| .applyAction connection action amount =>
    if c.Idle then
      ofResult
        (c.session.applyAction connection action amount)
    else
      .error .notEnabled
| .removePlayer connection =>
    if c.Idle then
      ofResult (c.session.removePlayer connection)
    else
      .error .notEnabled

end Config

namespace Table

/- A new session, about to run `start`. -/
def opening
    (table : Table) : Config where
  session := table.create
  pending := .start

/-
  `table.Run trace c`: the steps in `trace` lead from a new
  session to `c`.
-/
def Run
    (table : Table)
    (trace : List (Config × Event))
    (c : Config) : Prop :=
  Transition.Run Config.step table.opening trace c

/- A run that a list of events is found to take. -/
theorem exists_run
    (table : Table)
    (events : List Event)
    (test : List (Config × Event) → Config → Bool)
    (hPasses : Transition.passes Config.step table.opening
      events test = true) :
    ∃ trace c, table.Run trace c ∧ test trace c = true :=
  Transition.exists_run_of_passes hPasses

/- A run and its sequel that lists of events are found to take. -/
theorem exists_sequel
    (table : Table)
    (before after : List Event)
    (test : Config → List (Config × Event) → Config → Bool)
    (hPasses : Transition.passes Config.step table.opening
      before (fun _ c =>
        Transition.passes Config.step c after (test c)) =
          true) :
    ∃ trace c later d,
      table.Run trace c ∧
      Transition.Run Config.step c later d ∧
      test c later d = true := by
  rcases Transition.exists_run_of_passes hPasses with
    ⟨trace, c, run, hAfter⟩
  rcases Transition.exists_run_of_passes hAfter with
    ⟨later, d, sequel, hTest⟩
  exact ⟨trace, c, later, d, run, sequel, hTest⟩

------------------------------------------------------------
-- Tables of Numbered Players
------------------------------------------------------------

/-
  Players 0, 1, … on connections 0, 1, …, each with his
  bankroll, at a server without a user repository.
-/
def numbered
    (bankrolls : List UInt32)
    (hTwo : 2 ≤ bankrolls.length) : Table where
  roster :=
    { seats := (List.range bankrolls.length).map
        fun i => (i, i)
      connections_nodup := by
        simpa [Function.comp_def] using List.nodup_range
      players_nodup := by
        simpa [Function.comp_def] using List.nodup_range
      two_le_length := by simpa using hTwo }
  names := fun p => toString p
  hasRepository := false
  bankrolls :=
    bankrolls.zipIdx.foldl
      (fun m entry => m.set (toString entry.2) entry.1)
      .empty

end Table

namespace Event

/- An action without an amount. -/
def act
    (player : Nat)
    (action : Action) : Event :=
  .applyAction player action none

/- A raise to a total. -/
def raiseTo
    (player : Nat)
    (total : UInt32) : Event :=
  .applyAction player .raise (some total)

/- Calls that run with the deck in its first order. -/
def proceeds
    (count : Nat) : List Event :=
  List.replicate count (.proceed .unshuffled)

end Event

end Server

end Poker
