import AsciiPoker.Server.GameSession.Script
import AsciiPoker.Server.GameSession.Turns

/-
  What the players were last shown of the table.

  `broadcast_state` is called when a hand or a street begins
  and when a player leaves who is not on turn.  Nothing is
  broadcast when the turn moves on within a round, so what
  is shown falls behind the table there.

  Main declarations:
    * `GameSession.Shows`, `GameSession.Fresh`
    * `Config.MovesOn`, `Config.Told`
    * `Table.Run.fresh`
-/

namespace Poker

namespace Server

open Protocol

------------------------------------------------------------
-- The Table on Show
------------------------------------------------------------

/- The update that a message carries. -/
def gameStateUpdate? : ServerMessage → Option GameStateUpdate
| .gameStateUpdate update => some update
| _ => none

/- What an update tells of one player's stake in the hand. -/
structure Standing where
  name : String
  chips : UInt32
  roundBet : UInt32
  folded : Bool
  allIn : Bool
  deriving DecidableEq, Repr

def standing
    (state : PlayerState) : Standing where
  name := state.name
  chips := state.chips
  roundBet := state.roundBet
  folded := state.folded
  allIn := state.allIn

namespace GameSession

variable {s t : GameSession}

/- How a player stands in the session itself. -/
def standingOf
    (s : GameSession)
    (p : PlayerId) : Standing where
  name := s.names p
  chips := s.chips.get p
  roundBet := s.roundBets.get p
  folded := decide (p ∈ s.foldedPlayers)
  allIn := decide (p ∈ s.allInPlayers)

/- The name of the player on turn, if he can act. -/
def activeName
    (s : GameSession) : String :=
  match s.players[s.currentPlayerIndex]? with
  | none => ""
  | some p => if s.canPlayerAct p then s.names p else ""

/- The update shows the table as it is. -/
structure Shows
    (s : GameSession)
    (update : GameStateUpdate) : Prop where
  totalPot : update.totalPot = s.pot
  currentBet : update.currentBet = s.currentBet
  phase : update.phase = s.phase
  generalCards : update.generalCards = s.communityCards
  activePlayerName : update.activePlayerName = s.activeName
  players : update.players.map standing =
    s.players.map s.standingOf

/- The last update to everybody shows the table as it is. -/
def Fresh
    (s : GameSession) : Prop :=
  ∀ p ∈ s.players, ∃ update,
    Mailbox.last gameStateUpdate? p s.letters = some update ∧
      s.Shows update

theorem letters_append
    {entries : List Effect}
    (hLog : t.log = s.log ++ entries) :
    t.letters =
      s.letters ++ entries.filterMap Effect.letter := by
  unfold letters
  rw [hLog, List.filterMap_append]

theorem standing_of_ok
    {reveal : Bool}
    {p : PlayerId}
    {i : Nat}
    {state : PlayerState}
    (hOk : s.playerState reveal p i = .ok state) :
    standing state = s.standingOf p := by
  unfold playerState at hOk
  rcases Except.bind_eq_ok.mp hOk with ⟨chips, hChips, hRest⟩
  rcases Except.bind_eq_ok.mp hRest with ⟨bet, hBet, hRest⟩
  rw [require_eq_ok] at hChips hBet
  have hSame : ∀ cards, standing
      { name := s.names p
        chips := chips
        roundBet := bet
        folded := decide (p ∈ s.foldedPlayers)
        allIn := decide (p ∈ s.allInPlayers)
        isDealer := decide (i = s.dealerIndex)
        isSmallBlind := decide (i = s.sbIndex)
        isBigBlind := decide (i = s.bbIndex)
        holeCards := cards } = s.standingOf p := by
    intro cards
    unfold standing standingOf KeyMap.get
    rw [hChips, hBet]
    rfl
  dsimp only at hRest
  split at hRest
  · rcases Except.bind_eq_ok.mp hRest with ⟨cards, _, hEnd⟩
    cases hEnd
    exact hSame cards
  · cases hRest
    exact hSame []

/- The states of `build_player_states`, in seat order. -/
theorem standings_of_ok
    {reveal : Bool}
    {states : List PlayerState}
    (hOk : s.buildPlayerStates reveal = .ok states) :
    states.map standing = s.players.map s.standingOf := by
  have hSame : states.map standing =
      s.players.zipIdx.map fun seat => s.standingOf seat.1 :=
    List.map_of_mapM_eq_ok
      (fun _ _ hSeat => standing_of_ok hSeat) hOk
  rw [hSame, ← Function.comp_def s.standingOf Prod.fst,
    ← List.map_map, List.zipIdx_map_fst]

/- Right after a broadcast everybody sees the table. -/
theorem Updates.shows
    {active : PlayerId}
    {states : List PlayerState}
    {p : PlayerId}
    (hAt : s.players[s.currentPlayerIndex]? = some active)
    (hStates : states.map standing =
      s.players.map s.standingOf) :
    s.Shows (s.updateFor active states p) where
  totalPot := rfl
  currentBet := rfl
  phase := rfl
  generalCards := rfl
  activePlayerName := by
    unfold activeName
    rw [hAt]
    rfl
  players := hStates

/- What is broadcast last is fresh. -/
theorem Updates.fresh_of_log
    {entries told : List Effect}
    (hUpdates : s.Updates told)
    (hLog : s.log = entries ++ told) :
    s.Fresh := by
  rcases hUpdates with ⟨active, states, hAt, hStates, rfl⟩
  intro p hSeated
  refine ⟨s.updateFor active states p, ?_,
    Updates.shows hAt (standings_of_ok hStates)⟩
  unfold letters
  rw [hLog, List.filterMap_append, letters_sendsTo]
  apply Mailbox.last_append_of_some
  exact Mailbox.last_toAll hSeated rfl

/- A message of another kind does not age an update. -/
theorem Fresh.send
    {q : PlayerId}
    {msg : ServerMessage}
    (hFresh : s.Fresh)
    (hOther : gameStateUpdate? msg = none) :
    (s.send q msg).Fresh := by
  intro p hSeated
  rcases hFresh p hSeated with ⟨update, hLast, hShows⟩
  refine ⟨update, ?_, hShows.totalPot, hShows.currentBet,
    hShows.phase, hShows.generalCards,
    hShows.activePlayerName, hShows.players⟩
  rw [letters_append (t := s.send q msg) rfl,
    Mailbox.last_append_of_nil]
  · exact hLast
  · apply Mailbox.picked_eq_nil
    intro m hMem
    simp only [Effect.letter, List.filterMap_cons,
      List.filterMap_nil, List.mem_singleton,
      Prod.mk.injEq] at hMem
    rw [hMem.2]
    exact hOther

end GameSession

------------------------------------------------------------
-- Turns That Move On
------------------------------------------------------------

/- Whose turn it is does not matter for the round. -/
theorem GameSession.isRoundComplete_of_moved
    (s : GameSession)
    (index : Nat)
    (bankrolls : KeyMap String UInt32)
    (log : List Effect) :
    isRoundComplete { s with
        currentPlayerIndex := index
        bankrolls := bankrolls
        log := log } = s.isRoundComplete := by
  have hLoop : ∀ ps : List PlayerId,
      roundCompleteLoop { s with
        currentPlayerIndex := index
        bankrolls := bankrolls
        log := log } ps = s.roundCompleteLoop ps := by
    intro ps
    induction ps with
    | nil => rfl
    | cons p ps ih =>
        simp only [roundCompleteLoop, ih]
        rfl
  unfold isRoundComplete
  rw [hLoop]
  rfl

namespace Config

/- The session waits for the player on turn. -/
def Waits
    (c : Config) : Prop :=
  c.pending = .done ∧ c.session.InProgress

instance (c : Config) : Decidable c.Waits :=
  inferInstanceAs (Decidable (_ ∧ _))

/-
  An accepted action leaves the betting round open.
-/
def ActsWithin
    (c : Config) : Event → Prop
| .applyAction connection action amount =>
    ∃ p t,
      c.session.getPlayer connection = some p ∧
      c.session.players[c.session.currentPlayerIndex]? =
        some p ∧
      c.session.performAction p action amount = .ok t ∧
      (t.recordPlayerAction p action).isRoundComplete =
        .ok false
| .proceed _ => False
| .removePlayer _ => False

/-
  The turn moves on while the betting round stays open, and
  no update is sent: an action was accepted, the player on
  turn has left, or a question passes over a player who
  cannot act.
-/
def MovesOn
    (c : Config)
    (e : Event) : Prop :=
  c.ActsWithin e ∨
    (∃ leaver, c.pending = .resume (.finishRemoval leaver) ∧
      leaver.wasCurrent = true ∧
      (c.session.vacate leaver).isRoundComplete =
        .ok false) ∨
    (c.pending = .askCurrentPlayer ∧
      ¬ c.session.canActAt c.session.currentPlayerIndex ∧
      c.session.isRoundComplete = .ok false)

/-
  A call that sends an update before anybody is asked: a
  hand or a street begins, or a player is being removed who
  was not on turn.
-/
def Broadcasts
    (c : Config) : Prop :=
  c.pending = .start ∨ c.pending = .nextPhase ∨
    ∃ leaver, c.pending = .resume (.finishRemoval leaver) ∧
      leaver.wasCurrent = false

/- A call moves on if somebody leaves or cannot act. -/
theorem not_movesOn_of_proceed
    {c : Config}
    {shuffle : Shuffle}
    (hStays : c.pending.leaver? = none)
    (hActs :
      c.session.canActAt c.session.currentPlayerIndex) :
    ¬ c.MovesOn (.proceed shuffle) := by
  rintro (hAct | ⟨leaver, hPending, _⟩ | ⟨_, hNot, _⟩)
  · exact hAct
  · rw [hPending] at hStays
    cases hStays
  · exact hNot hActs

/- Whoever is asked, or waited for, was shown the table. -/
def Told
    (c : Config) : Prop :=
  match c.pending with
  | .done => c.session.InProgress → c.session.Fresh
  | .askCurrentPlayer => c.session.Fresh
  | _ => True

theorem told_of_fresh
    {c : Config}
    (hFresh : c.session.Fresh) :
    c.Told := by
  unfold Told
  split
  · exact fun _ => hFresh
  · exact hFresh
  · trivial

/- Nothing is asked while a round is being closed. -/
theorem told_of_closes
    {s : GameSession}
    {pending : Pending}
    (hCloses : s.Closes pending)
    (hShut : s.isRoundComplete ≠ .ok false) :
    Told ⟨s, pending⟩ := by
  rcases hCloses with ⟨_, rfl⟩ | ⟨hOpen, _⟩
  · trivial
  · exact absurd hOpen hShut

/- A removal that asks at once is that of the player on turn. -/
theorem wasCurrent_of_asks
    {s t : GameSession}
    {leaver : Leaver}
    (hOk : s.finishRemoval leaver =
      .ok (t, .askCurrentPlayer)) :
    leaver.wasCurrent = true := by
  unfold GameSession.finishRemoval at hOk
  dsimp only at hOk
  split at hOk
  · cases hOk
  split at hOk
  · cases hOk
  split at hOk
  · cases hOk
  unfold GameSession.continueAfterPlayerLeft at hOk
  rcases Except.bind_eq_ok.mp hOk with ⟨complete, _, hRest⟩
  split at hRest
  · rename_i hAsks
    cases complete with
    | true => cases hRest
    | false => simpa using hAsks
  · rcases Except.bind_eq_ok.mp hRest with ⟨sent, _, hEnd⟩
    cases hEnd

/- An action that asks at once leaves the round open. -/
theorem actsWithin_of_asks
    {s t : GameSession}
    {connection : ConnId}
    {action : Action}
    {amount : Option UInt32}
    (hOk : s.applyAction connection action amount =
      .ok (t, .askCurrentPlayer)) :
    ActsWithin ⟨s, .done⟩
      (.applyAction connection action amount) := by
  unfold GameSession.applyAction at hOk
  cases hPlayer : s.getPlayer connection with
  | none =>
      rw [hPlayer] at hOk
      cases hOk
  | some p =>
      rw [hPlayer] at hOk
      rcases Except.bind_eq_ok.mp hOk with
        ⟨onTurn, hAt, hRest⟩
      rw [playerAt_eq_ok] at hAt
      split at hRest
      · cases hRest
      rename_i hTurn
      rw [not_not.mp hTurn] at hAt
      cases hActs : s.performAction p action amount with
      | error code =>
          rw [hActs] at hRest
          cases hRest
      | ok u =>
          rw [hActs] at hRest
          refine ⟨p, u, hPlayer, hAt, hActs, ?_⟩
          rcases afterAction_of_ok hRest with
            ⟨v, ⟨_, _, rfl, _⟩, ⟨_, _, hWon⟩ |
              ⟨_, _, hCloses⟩⟩
          · cases hWon
          · rcases hCloses with ⟨_, hNext⟩ | ⟨hOpen, _⟩
            · cases hNext
            · exact (GameSession.isRoundComplete_of_moved
                _ ..).symm.trans hOpen

/- Every step that is not silent about the turn tells it. -/
theorem Told.step
    {c d : Config}
    {e : Event}
    (hOrder : c.InOrder)
    (hTold : c.Told)
    (hShown : ¬ c.MovesOn e)
    (hOk : c.step e = .ok d) :
    d.Told := by
  have hStaged := hOrder.2
  rcases says_of_ok hOk with ⟨entries, hLog, hSays⟩
  have hStep := step_of_ok hOk
  cases hStep with
  | started hDealt hPosted hQuiet =>
      cases hSays with
      | started hSaves hUpdates =>
          rw [← List.append_assoc] at hLog
          exact told_of_fresh (hUpdates.fresh_of_log hLog)
  | asked hAt hAct =>
      have hFresh : GameSession.Fresh _ := hTold
      exact fun _ => hFresh.send rfl
  | @passedOver s p pending shuffle hAt hAct hCloses =>
      apply told_of_closes hCloses
      intro hOpen
      refine hShown (Or.inr (Or.inr ⟨rfl, ?_, ?_⟩))
      · rintro ⟨q, hq, hCan⟩
        rw [Option.mem_def.mp hq] at hAt
        cases hAt
        exact hAct hCan
      · exact (s.isRoundComplete_of_moved ..).symm.trans hOpen
  | wonByFold hOne => trivial
  | street hMany hPhase hDeal hQuiet =>
      cases hSays with
      | street hAsk hUpdates =>
          exact told_of_fresh (hUpdates.fresh_of_log hLog)
      | closed hNext => exact absurd rfl hNext
  | riverClosed hMany hPhase => trivial
  | pastShowdown hMany hPhase =>
      rintro ⟨hNot, _⟩
      exact absurd hPhase hNot
  | shownDown hQuiet hPending =>
      rcases hPending with ⟨_, rfl⟩ | ⟨_, rfl⟩ | ⟨_, rfl⟩
      · trivial
      · trivial
      · trivial
  | singleWinner => trivial
  | awardedNothing hEmpty => trivial
  | awarded hFull hPaid hQuiet => trivial
  | handOver hEnough hChips => trivial
  | gameOver hOver =>
      rintro ⟨hNot, hTwo⟩
      rcases hStaged with ⟨_, hShowdown | hOne⟩
      · exact absurd hShowdown hNot
      · dsimp only at hOne hTwo
        omega
  | @leftFew s t leaver shuffle hFew hErased =>
      rintro ⟨_, hTwo⟩
      have hLe : t.countActivePlayers ≤ t.players.length :=
        List.countP_le_length
      unfold GameSession.hasEnoughPlayers at hFew
      dsimp only at hTwo
      omega
  | leftOneActive hEnough hOne => trivial
  | @leftClosing s leaver pending shuffle hEnough hMany
      hCloses =>
      rcases hCloses with ⟨_, rfl⟩ | ⟨hOpen, rfl⟩
      · trivial
      · simp only [Config.step, Config.ofResult_eq_ok] at hOk
        exact absurd (Or.inr (Or.inl
          ⟨leaver, rfl, wasCurrent_of_asks hOk, hOpen⟩)) hShown
  | @leftWaiting s t leaver shuffle hEnough hMany hOther hOpen
      hQuiet =>
      cases hSays with
      | left hSaves hBusy =>
          rcases hQuiet with ⟨_, _, rfl, _⟩
          exact absurd ⟨rfl, hEnough⟩ hBusy
      | leftWaiting hSaves hIdle hUpdates =>
          rw [← List.append_assoc] at hLog
          exact told_of_fresh (hUpdates.fresh_of_log hLog)
  | unmapped hEnough hNone => exact hTold
  | rejected hEnough hPlayer =>
      exact fun hProgress => (hTold hProgress).send rfl
  | wonByAction hEnough hPlayer hAt hActs hQuiet hOne =>
      trivial
  | acted hEnough hPlayer hAt hActs hQuiet hMany hCloses =>
      rcases hCloses with ⟨_, rfl⟩ | ⟨_, rfl⟩
      · trivial
      · simp only [Config.step] at hOk
        split at hOk
        · rw [Config.ofResult_eq_ok] at hOk
          exact absurd (Or.inl (actsWithin_of_asks hOk))
            hShown
        · cases hOk
  | notSeated hEnough hNone => exact hTold
  | leaving hEnough hPlayer hAt hCurrent hWas hPending =>
      rcases hPending with ⟨_, rfl⟩ | ⟨_, rfl⟩
      · trivial
      · trivial

end Config

section Runs

variable {table : Table}
variable {trace later : List (Config × Event)}
variable {c d : Config}

/-
  From a state in which the table is about to be broadcast,
  and while the turn does not move on within a round:
  whenever the session waits for a player, everybody was
  last shown the table as it is.
-/
theorem Table.Run.fresh
    (run : table.Run trace c)
    (hBroadcasts : c.Broadcasts)
    (sequel : Transition.Run Config.step c later d)
    (hShown : ∀ p ∈ later, ¬ p.1.MovesOn p.2)
    (hWaits : d.Waits) :
    d.session.Fresh := by
  let Inv : Config → Prop :=
    fun c => c.InOrder ∧ c.Told
  have hKeep : ∀ c e d, Inv c → ¬ c.MovesOn e →
      c.step e = .ok d → Inv d := by
    rintro c e d ⟨hOrder, hTold⟩ hShown hOk
    exact ⟨hOrder.step hOk, hTold.step hOrder hShown hOk⟩
  have hStart : c.Told := by
    unfold Config.Told
    rcases hBroadcasts with h | h | ⟨leaver, h, _⟩
    · simp only [h]
    · simp only [h]
    · simp only [h]
  have hTold :=
    (sequel.invariant hKeep hShown ⟨run.inOrder, hStart⟩).2
  unfold Config.Told at hTold
  rw [hWaits.1] at hTold
  exact hTold hWaits.2

/- Player 0 calls the blind, and player 1 is asked. -/
def Event.callsBlind : List Event :=
  proceeds 2 ++ [act 0 .call] ++ proceeds 1

/- The pot is 50, and player 1 was last shown 30. -/
theorem Table.callsBlind_not_fresh :
    ¬ ∀ (table : Table) (trace : List (Config × Event))
        (c : Config),
      table.Run trace c → c.Waits → c.session.Fresh := by
  intro hAll
  rcases exists_run
      (numbered [1000, 1000, 1000] (by decide))
      Event.callsBlind
      (fun _ c => decide
        (c.Waits ∧ 1 ∈ c.session.players ∧
          c.session.pot = 50 ∧
          (Mailbox.last gameStateUpdate? 1
            c.session.letters).map
              GameStateUpdate.totalPot = some 30))
      (by decide +kernel) with
    ⟨trace, c, run, hTest⟩
  rcases of_decide_eq_true hTest with
    ⟨hWaits, hSeated, hPot, hLast⟩
  rcases hAll _ _ _ run hWaits 1 hSeated with
    ⟨update, hUpdate, hShows⟩
  rw [hUpdate] at hLast
  have hTotal : update.totalPot = 30 := Option.some.inj hLast
  rw [hShows.totalPot, hPot] at hTotal
  cases hTotal

/- Player 1 checks after that, which opens the flop. -/
theorem Table.flop_fresh :
    ∃ trace c later d,
      (numbered [1000, 1000] (by decide)).Run trace c ∧
      Transition.Run Config.step c later d ∧
      d.Waits ∧ d.session.Fresh := by
  rcases exists_run (numbered [1000, 1000] (by decide))
      (Event.callsBlind ++ [.act 1 .check])
      (fun _ c => decide (c.pending = .nextPhase) &&
        Transition.passes Config.step c (Event.proceeds 2)
          fun later d => decide (d.Waits ∧
            ∀ x ∈ later, x.1.pending.leaver? = none ∧
              x.1.session.canActAt
                x.1.session.currentPlayerIndex))
      (by decide +kernel) with
    ⟨trace, c, run, hTest⟩
  rw [Bool.and_eq_true] at hTest
  rcases hTest with ⟨hNext, hAfter⟩
  rcases Transition.exists_run_on_of_passes hAfter with
    ⟨later, d, sequel, hEvents, hEnd⟩
  rcases of_decide_eq_true hEnd with ⟨hWaits, hSteps⟩
  refine ⟨trace, c, later, d, run, sequel, hWaits, ?_⟩
  refine run.fresh (Or.inr (Or.inl (of_decide_eq_true hNext)))
    sequel ?_ hWaits
  rintro ⟨before, e⟩ hMem
  have hCalls : e ∈ Event.proceeds 2 := by
    rw [← hEvents]
    exact List.mem_map_of_mem hMem
  rw [List.eq_of_mem_replicate hCalls]
  exact Config.not_movesOn_of_proceed (hSteps _ hMem).1
    (hSteps _ hMem).2

end Runs

end Server

end Poker
