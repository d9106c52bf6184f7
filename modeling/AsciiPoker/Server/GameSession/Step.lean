import AsciiPoker.Library.Failure
import AsciiPoker.Server.GameSession.Frame
import AsciiPoker.Server.GameSession.Machine

/-
  Everything that one step of the machine can do.

  `Step c e d` lists the outcomes of a step by name, each up
  to a quiet change; `step_of_ok` says that the machine does
  nothing else.  Every invariant is proved by cases on it.

  Main declarations:
    * `GameSession.Closes`, `GameSession.Dealt`,
      `GameSession.Acts`
    * `Step`
    * `step_of_ok`
-/

namespace Poker

namespace Server

open Protocol

------------------------------------------------------------
-- Outcomes of Single Functions
------------------------------------------------------------

namespace GameSession

/- What `if (is_round_complete())` goes on with. -/
def Closes
    (s : GameSession)
    (pending : Pending) : Prop :=
  (s.isRoundComplete = .ok true ∧ pending = .nextPhase) ∨
    (s.isRoundComplete = .ok false ∧
      pending = .askCurrentPlayer)

/- `start` dealt the hand of `dealt` and posted its blinds. -/
def Dealt
    (s : GameSession)
    (shuffle : Shuffle)
    (dealt : GameSession) : Prop :=
  (s.clearTable shuffle).players.foldlM dealPlayer
    (s.clearTable shuffle) = .ok dealt

/- What an accepted action does before it is recorded. -/
inductive Acts
    (s : GameSession)
    (p : PlayerId) :
    Action → Option UInt32 → GameSession → Prop
  | fold
      {amount : Option UInt32} :
      Acts s p .fold amount (s.foldLeaver p)
  | check
      {amount : Option UInt32}
      (hLevel : s.currentBet = s.roundBets.get p) :
      Acts s p .check amount s
  | callNothing
      {amount : Option UInt32}
      (hLevel : s.currentBet - s.roundBets.get p = 0) :
      Acts s p .call amount s
  | call
      {amount : Option UInt32}
      (hOwed : 0 < s.currentBet - s.roundBets.get p) :
      Acts s p .call amount
        (s.contribute p (s.currentBet - s.roundBets.get p))
  | raise
      {total : UInt32}
      (hHigher : s.currentBet < total)
      (hMore : s.roundBets.get p < total)
      (hMinimum :
        s.currentBet + s.lastRaiseIncrement ≤ total ∨
          s.roundBets.get p + s.chips.get p ≤ total)
      (hEnough :
        total - s.roundBets.get p ≤ s.chips.get p) :
      Acts s p .raise (some total)
        { s.contribute p (total - s.roundBets.get p) with
          lastRaiseIncrement := total - s.currentBet
          currentBet := total }

/- The table once a leaver's seat is gone. -/
def vacate
    (s : GameSession)
    (leaver : Leaver) : GameSession :=
  (s.eraseLeaver leaver).fixIndicesAfterRemoval
    leaver.removedIndex

end GameSession

------------------------------------------------------------
-- Outcomes of Steps
------------------------------------------------------------

/- What a step does, one constructor for each outcome. -/
inductive Step : Config → Event → Config → Prop
  | started
      {s dealt posted t : GameSession}
      {shuffle : Shuffle}
      (hDealt : s.Dealt shuffle dealt)
      (hPosted : dealt.postBlinds = .ok posted)
      (hQuiet : posted.openPreFlop.Quiet t) :
      Step ⟨s, .start⟩ (.proceed shuffle)
        ⟨t, .askCurrentPlayer⟩
  | asked
      {s : GameSession}
      {p : PlayerId}
      {shuffle : Shuffle}
      (hAt : s.players[s.currentPlayerIndex]? = some p)
      (hAct : s.canPlayerAct p) :
      Step ⟨s, .askCurrentPlayer⟩ (.proceed shuffle)
        ⟨s.send p (.yourTurn (s.yourTurn p)), .done⟩
  | passedOver
      {s : GameSession}
      {p : PlayerId}
      {pending : Pending}
      {shuffle : Shuffle}
      (hAt : s.players[s.currentPlayerIndex]? = some p)
      (hAct : ¬ s.canPlayerAct p)
      (hCloses : s.advanceToNextPlayer.Closes pending) :
      Step ⟨s, .askCurrentPlayer⟩ (.proceed shuffle)
        ⟨s.advanceToNextPlayer, pending⟩
  | wonByFold
      {s : GameSession}
      {shuffle : Shuffle}
      (hOne : s.countActivePlayers = 1) :
      Step ⟨s, .nextPhase⟩ (.proceed shuffle)
        ⟨s, .handleSingleWinner⟩
  | street
      {s t : GameSession}
      {count : Nat}
      {phase : GamePhase}
      {dealt rest : List Card}
      {shuffle : Shuffle}
      (hMany : s.countActivePlayers ≠ 1)
      (hPhase : (s.phase, count, phase) ∈
        [(.preFlop, 3, .flop), (.flop, 1, .turn),
          (.turn, 1, .river)])
      (hDeal : Deck.deal s.deck count = some (dealt, rest))
      (hQuiet :
        (s.clearBets.openStreet dealt rest phase).Quiet t) :
      Step ⟨s, .nextPhase⟩ (.proceed shuffle)
        ⟨t, .askCurrentPlayer⟩
  | riverClosed
      {s : GameSession}
      {shuffle : Shuffle}
      (hMany : s.countActivePlayers ≠ 1)
      (hPhase : s.phase = .river) :
      Step ⟨s, .nextPhase⟩ (.proceed shuffle)
        ⟨s.clearBets, .doShowdown⟩
  | pastShowdown
      {s : GameSession}
      {shuffle : Shuffle}
      (hMany : s.countActivePlayers ≠ 1)
      (hPhase : s.phase = .showdown) :
      Step ⟨s, .nextPhase⟩ (.proceed shuffle)
        ⟨s.clearBets, .done⟩
  | shownDown
      {s t : GameSession}
      {pending : Pending}
      {shuffle : Shuffle}
      (hQuiet : GameSession.Quiet { s with phase := .showdown } t)
      (hPending :
        (s.countActivePlayers = 0 ∧
            pending = .resume .tryStartNewHand) ∨
          (s.countActivePlayers = 1 ∧
            pending = .handleSingleWinner) ∨
          (2 ≤ s.countActivePlayers ∧
            pending = .awardAllPots .tryStartNewHand)) :
      Step ⟨s, .doShowdown⟩ (.proceed shuffle) ⟨t, pending⟩
  | singleWinner
      {s : GameSession}
      {shuffle : Shuffle} :
      Step ⟨s, .handleSingleWinner⟩ (.proceed shuffle)
        ⟨s, .awardAllPots .tryStartNewHand⟩
  | awardedNothing
      {s : GameSession}
      {next : AfterAward}
      {shuffle : Shuffle}
      (hEmpty : s.pot = 0) :
      Step ⟨s, .awardAllPots next⟩ (.proceed shuffle)
        ⟨s, .resume next⟩
  | awarded
      {s t : GameSession}
      {award : GameSession.Award}
      {next : AfterAward}
      {shuffle : Shuffle}
      (hFull : s.pot ≠ 0)
      (hPaid : (computeSidePots s.potPlayerStates).foldlM
        GameSession.payPot { session := s } = .ok award)
      (hQuiet : GameSession.Quiet { award.session with
        pot := 0
        totalContributed := .empty } t) :
      Step ⟨s, .awardAllPots next⟩ (.proceed shuffle)
        ⟨t, .resume next⟩
  | handOver
      {s : GameSession}
      {shuffle : Shuffle}
      (hEnough : s.hasEnoughPlayers)
      (hChips : 2 ≤ s.countPlayersWithChips) :
      Step ⟨s, .resume .tryStartNewHand⟩ (.proceed shuffle)
        ⟨{ s with
            dealerIndex :=
              (s.dealerIndex + 1) % s.players.length },
          .start⟩
  | gameOver
      {s : GameSession}
      {shuffle : Shuffle}
      (hOver : ¬ s.hasEnoughPlayers ∨
        s.countPlayersWithChips < 2) :
      Step ⟨s, .resume .tryStartNewHand⟩ (.proceed shuffle)
        ⟨s, .done⟩
  | leftFew
      {s t : GameSession}
      {leaver : Leaver}
      {shuffle : Shuffle}
      (hFew : ¬ t.hasEnoughPlayers)
      (hErased : t = s.eraseLeaver leaver ∨
        t = s.vacate leaver) :
      Step ⟨s, .resume (.finishRemoval leaver)⟩
        (.proceed shuffle) ⟨t, .done⟩
  | leftOneActive
      {s : GameSession}
      {leaver : Leaver}
      {shuffle : Shuffle}
      (hEnough : (s.vacate leaver).hasEnoughPlayers)
      (hOne : (s.vacate leaver).countActivePlayers = 1) :
      Step ⟨s, .resume (.finishRemoval leaver)⟩
        (.proceed shuffle)
        ⟨s.vacate leaver, .resume .tryStartNewHand⟩
  | leftClosing
      {s : GameSession}
      {leaver : Leaver}
      {pending : Pending}
      {shuffle : Shuffle}
      (hEnough : (s.vacate leaver).hasEnoughPlayers)
      (hMany : (s.vacate leaver).countActivePlayers ≠ 1)
      (hCloses : (s.vacate leaver).Closes pending) :
      Step ⟨s, .resume (.finishRemoval leaver)⟩
        (.proceed shuffle) ⟨s.vacate leaver, pending⟩
  | leftWaiting
      {s t : GameSession}
      {leaver : Leaver}
      {shuffle : Shuffle}
      (hEnough : (s.vacate leaver).hasEnoughPlayers)
      (hMany : (s.vacate leaver).countActivePlayers ≠ 1)
      (hOther : leaver.wasCurrent = false)
      (hOpen : (s.vacate leaver).isRoundComplete = .ok false)
      (hQuiet : (s.vacate leaver).Quiet t) :
      Step ⟨s, .resume (.finishRemoval leaver)⟩
        (.proceed shuffle) ⟨t, .done⟩
  | unmapped
      {s : GameSession}
      {connection : ConnId}
      {action : Action}
      {amount : Option UInt32}
      (hEnough : s.hasEnoughPlayers)
      (hNone : s.getPlayer connection = none) :
      Step ⟨s, .done⟩ (.applyAction connection action amount)
        ⟨s, .done⟩
  | rejected
      {s : GameSession}
      {p : PlayerId}
      {code : ErrorCode}
      {connection : ConnId}
      {action : Action}
      {amount : Option UInt32}
      (hEnough : s.hasEnoughPlayers)
      (hPlayer : s.getPlayer connection = some p) :
      Step ⟨s, .done⟩ (.applyAction connection action amount)
        ⟨s.sendError p code, .done⟩
  | wonByAction
      {s t u : GameSession}
      {p : PlayerId}
      {connection : ConnId}
      {action : Action}
      {amount : Option UInt32}
      (hEnough : s.hasEnoughPlayers)
      (hPlayer : s.getPlayer connection = some p)
      (hAt : s.players[s.currentPlayerIndex]? = some p)
      (hActs : s.Acts p action amount t)
      (hQuiet : (t.recordPlayerAction p action).Quiet u)
      (hOne : u.countActivePlayers = 1) :
      Step ⟨s, .done⟩ (.applyAction connection action amount)
        ⟨u, .handleSingleWinner⟩
  | acted
      {s t u : GameSession}
      {p : PlayerId}
      {pending : Pending}
      {connection : ConnId}
      {action : Action}
      {amount : Option UInt32}
      (hEnough : s.hasEnoughPlayers)
      (hPlayer : s.getPlayer connection = some p)
      (hAt : s.players[s.currentPlayerIndex]? = some p)
      (hActs : s.Acts p action amount t)
      (hQuiet : (t.recordPlayerAction p action).Quiet u)
      (hMany : u.countActivePlayers ≠ 1)
      (hCloses : u.advanceToNextPlayer.Closes pending) :
      Step ⟨s, .done⟩ (.applyAction connection action amount)
        ⟨u.advanceToNextPlayer, pending⟩
  | notSeated
      {s : GameSession}
      {connection : ConnId}
      (hEnough : s.hasEnoughPlayers)
      (hNone : ∀ p ∈ s.getPlayer connection,
        p ∉ s.players) :
      Step ⟨s, .done⟩ (.removePlayer connection) ⟨s, .done⟩
  | leaving
      {s : GameSession}
      {leaver : Leaver}
      {current : PlayerId}
      {pending : Pending}
      (hEnough : s.hasEnoughPlayers)
      (hPlayer : s.getPlayer leaver.connection =
        some leaver.player)
      (hAt : s.players[leaver.removedIndex]? =
        some leaver.player)
      (hCurrent : s.players[s.currentPlayerIndex]? =
        some current)
      (hWas : leaver.wasCurrent =
        decide (current = leaver.player))
      (hPending :
        ((s.foldLeaver leaver.player).countActivePlayers = 1 ∧
            pending = .awardAllPots (.finishRemoval leaver)) ∨
          ((s.foldLeaver leaver.player).countActivePlayers ≠
              1 ∧
            pending = .resume (.finishRemoval leaver))) :
      Step ⟨s, .done⟩ (.removePlayer leaver.connection)
        ⟨s.foldLeaver leaver.player, pending⟩

------------------------------------------------------------
-- The Machine Does Nothing Else
------------------------------------------------------------

section Inversion

variable {s t : GameSession}
variable {pending : Pending}
variable {shuffle : Shuffle}

/- An index is checked when it is used. -/
theorem playerAt_eq_ok
    {index : Nat}
    {p : PlayerId} :
    s.playerAt index = .ok p ↔
      s.players[index]? = some p :=
  require_eq_ok

/- The round closes, or somebody is asked. -/
theorem closes_of_ok
    (hOk : s.closeRoundOrAsk = .ok (t, pending)) :
    t = s ∧ s.Closes pending := by
  unfold GameSession.closeRoundOrAsk at hOk
  rcases Except.bind_eq_ok.mp hOk with
    ⟨complete, hComplete, hRest⟩
  cases complete with
  | true =>
      simp only [if_true, Except.ok.injEq,
        Prod.mk.injEq] at hRest
      exact ⟨hRest.1.symm, Or.inl ⟨hComplete, hRest.2.symm⟩⟩
  | false =>
      simp only [Bool.false_eq_true, if_false,
        Except.ok.injEq, Prod.mk.injEq] at hRest
      exact ⟨hRest.1.symm, Or.inr ⟨hComplete, hRest.2.symm⟩⟩

/- A hand is dealt. -/
theorem step_of_start
    (hOk : s.start shuffle = .ok (t, pending)) :
    Step ⟨s, .start⟩ (.proceed shuffle) ⟨t, pending⟩ := by
  unfold GameSession.start at hOk
  rcases Except.bind_eq_ok.mp hOk with ⟨dealt, hDealt, hRest⟩
  rcases Except.bind_eq_ok.mp hRest with
    ⟨posted, hPosted, hRest⟩
  rcases Except.bind_eq_ok.mp hRest with ⟨sent, hSent, hEnd⟩
  cases hEnd
  exact Step.started hDealt hPosted
    ((GameSession.persistAllChips_quiet _).trans
      (GameSession.broadcastState_quiet hSent))

/- The player on turn is asked or passed over. -/
theorem step_of_askCurrentPlayer
    (hOk : s.askCurrentPlayer = .ok (t, pending)) :
    Step ⟨s, .askCurrentPlayer⟩ (.proceed shuffle)
      ⟨t, pending⟩ := by
  unfold GameSession.askCurrentPlayer at hOk
  rcases Except.bind_eq_ok.mp hOk with ⟨p, hAt, hRest⟩
  rw [playerAt_eq_ok] at hAt
  by_cases hAct : s.canPlayerAct p
  · rw [if_neg (not_not.mpr hAct)] at hRest
    cases hRest
    exact Step.asked hAt hAct
  · rw [if_pos hAct] at hRest
    rcases closes_of_ok hRest with ⟨rfl, hCloses⟩
    exact Step.passedOver hAt hAct hCloses

/- A street that was dealt, read off `dealStreet`. -/
theorem street_of_ok
    {count : Nat}
    {phase : GamePhase}
    (hOk : s.dealStreet count phase = .ok (t, pending)) :
    ∃ dealt rest,
      Deck.deal s.deck count = some (dealt, rest) ∧
        (s.openStreet dealt rest phase).Quiet t ∧
        pending = .askCurrentPlayer := by
  unfold GameSession.dealStreet at hOk
  rcases Except.bind_eq_ok.mp hOk with
    ⟨⟨dealt, rest⟩, hDeal, hRest⟩
  rcases Except.bind_eq_ok.mp hRest with ⟨sent, hSent, hEnd⟩
  cases hEnd
  exact ⟨dealt, rest, require_eq_ok.mp hDeal,
    GameSession.broadcastState_quiet hSent, rfl⟩

/- A street is dealt, or the hand is over. -/
theorem step_of_nextPhase
    (hOk : s.nextPhase = .ok (t, pending)) :
    Step ⟨s, .nextPhase⟩ (.proceed shuffle) ⟨t, pending⟩ := by
  unfold GameSession.nextPhase at hOk
  by_cases hOne : s.countActivePlayers = 1
  · rw [if_pos hOne] at hOk
    cases hOk
    exact Step.wonByFold hOne
  · rw [if_neg hOne] at hOk
    cases hPhase : s.phase with
    | preFlop =>
        rw [hPhase] at hOk
        rcases street_of_ok hOk with
          ⟨dealt, rest, hDeal, hQuiet, rfl⟩
        exact Step.street hOne (by simp [hPhase]) hDeal hQuiet
    | flop =>
        rw [hPhase] at hOk
        rcases street_of_ok hOk with
          ⟨dealt, rest, hDeal, hQuiet, rfl⟩
        exact Step.street hOne (by simp [hPhase]) hDeal hQuiet
    | turn =>
        rw [hPhase] at hOk
        rcases street_of_ok hOk with
          ⟨dealt, rest, hDeal, hQuiet, rfl⟩
        exact Step.street hOne (by simp [hPhase]) hDeal hQuiet
    | river =>
        rw [hPhase] at hOk
        cases hOk
        exact Step.riverClosed hOne hPhase
    | showdown =>
        rw [hPhase] at hOk
        cases hOk
        exact Step.pastShowdown hOne hPhase

/- The hands are shown. -/
theorem step_of_doShowdown
    (hOk : s.doShowdown = .ok (t, pending)) :
    Step ⟨s, .doShowdown⟩ (.proceed shuffle)
      ⟨t, pending⟩ := by
  unfold GameSession.doShowdown at hOk
  rcases Except.bind_eq_ok.mp hOk with ⟨u, hSent, hRest⟩
  have hQuiet := GameSession.broadcastState_quiet hSent
  have hCount :
      u.countActivePlayers = s.countActivePlayers := by
    rcases hQuiet with ⟨_, _, rfl, _⟩
    rfl
  rw [hCount] at hRest
  by_cases hZero : s.countActivePlayers = 0
  · rw [if_pos hZero] at hRest
    cases hRest
    exact Step.shownDown hQuiet (Or.inl ⟨hZero, rfl⟩)
  · rw [if_neg hZero] at hRest
    by_cases hOne : s.countActivePlayers = 1
    · rw [if_pos hOne] at hRest
      cases hRest
      exact Step.shownDown hQuiet
        (Or.inr (Or.inl ⟨hOne, rfl⟩))
    · rw [if_neg hOne] at hRest
      cases hRest
      exact Step.shownDown hQuiet
        (Or.inr (Or.inr ⟨by omega, rfl⟩))

/- The award is only told of. -/
theorem announceAward_quiet
    {award : GameSession.Award}
    (hOk : GameSession.announceAward award = .ok t) :
    award.session.Quiet t := by
  unfold GameSession.announceAward at hOk
  by_cases hNames : award.winnerNames = []
  · rw [if_neg (not_not.mpr hNames)] at hOk
    cases hOk
    exact GameSession.Quiet.refl _
  · rw [if_pos hNames] at hOk
    rcases Except.bind_eq_ok.mp hOk with ⟨u, hState, hEnd⟩
    cases hEnd
    exact ((GameSession.persistAllChips_quiet _).trans
      (GameSession.broadcastState_quiet hState)).trans
        (GameSession.broadcastHandResult_quiet ..)

/- The pots are paid, if there are any. -/
theorem step_of_awardAllPots
    {next : AfterAward}
    (hOk : s.awardAllPots = .ok t) :
    Step ⟨s, .awardAllPots next⟩ (.proceed shuffle)
      ⟨t, .resume next⟩ := by
  unfold GameSession.awardAllPots at hOk
  by_cases hEmpty : s.pot = 0
  · rw [if_pos hEmpty] at hOk
    cases hOk
    exact Step.awardedNothing hEmpty
  · rw [if_neg hEmpty] at hOk
    rcases Except.bind_eq_ok.mp hOk with
      ⟨award, hPaid, hRest⟩
    rcases Except.bind_eq_ok.mp hRest with ⟨u, hSent, hEnd⟩
    cases hEnd
    have hQuiet := announceAward_quiet hSent
    refine Step.awarded hEmpty hPaid ?_
    rcases hQuiet with ⟨bankrolls, log, rfl, hTurns⟩
    exact ⟨bankrolls, log, rfl, hTurns⟩

/- Another hand begins, or the game is over. -/
theorem step_of_tryStartNewHand :
    Step ⟨s, .resume .tryStartNewHand⟩ (.proceed shuffle)
      ⟨s.tryStartNewHand.1, s.tryStartNewHand.2⟩ := by
  unfold GameSession.tryStartNewHand
  by_cases hEnough : s.hasEnoughPlayers
  · rw [if_neg (not_not.mpr hEnough)]
    by_cases hChips : s.countPlayersWithChips < 2
    · rw [if_pos hChips]
      exact Step.gameOver (Or.inr hChips)
    · rw [if_neg hChips]
      exact Step.handOver hEnough (by omega)
  · rw [if_pos hEnough]
    exact Step.gameOver (Or.inl hEnough)

/- The seat is vacated, and the hand goes on. -/
theorem step_of_finishRemoval
    {leaver : Leaver}
    (hOk : s.finishRemoval leaver = .ok (t, pending)) :
    Step ⟨s, .resume (.finishRemoval leaver)⟩
      (.proceed shuffle) ⟨t, pending⟩ := by
  unfold GameSession.finishRemoval at hOk
  by_cases hEmpty : (s.eraseLeaver leaver).players = []
  · simp only [if_pos hEmpty] at hOk
    cases hOk
    refine Step.leftFew ?_ (Or.inl rfl)
    simp [GameSession.hasEnoughPlayers, hEmpty]
  · simp only [if_neg hEmpty] at hOk
    change (if ¬ (s.vacate leaver).hasEnoughPlayers then
        .ok (s.vacate leaver, .done)
      else if (s.vacate leaver).countActivePlayers = 1 then
        .ok (s.vacate leaver, .resume .tryStartNewHand)
      else
        (s.vacate leaver).continueAfterPlayerLeft
          leaver.wasCurrent) = Except.ok (t, pending) at hOk
    by_cases hEnough : (s.vacate leaver).hasEnoughPlayers
    · rw [if_neg (not_not.mpr hEnough)] at hOk
      by_cases hOne : (s.vacate leaver).countActivePlayers = 1
      · rw [if_pos hOne] at hOk
        cases hOk
        exact Step.leftOneActive hEnough hOne
      · rw [if_neg hOne] at hOk
        unfold GameSession.continueAfterPlayerLeft at hOk
        rcases Except.bind_eq_ok.mp hOk with
          ⟨complete, hComplete, hRest⟩
        cases complete with
        | true =>
            simp only [Bool.or_true, if_true] at hRest
            cases hRest
            exact Step.leftClosing hEnough hOne
              (Or.inl ⟨hComplete, rfl⟩)
        | false =>
            cases hWas : leaver.wasCurrent with
            | true =>
                simp only [hWas, Bool.or_false, if_true,
                  Bool.false_eq_true, if_false] at hRest
                cases hRest
                exact Step.leftClosing hEnough hOne
                  (Or.inr ⟨hComplete, rfl⟩)
            | false =>
                simp only [hWas, Bool.or_false,
                  Bool.false_eq_true, if_false] at hRest
                rcases Except.bind_eq_ok.mp hRest with
                  ⟨u, hSent, hEnd⟩
                cases hEnd
                exact Step.leftWaiting hEnough hOne hWas
                  hComplete
                  (GameSession.broadcastState_quiet hSent)
    · rw [if_pos hEnough] at hOk
      cases hOk
      exact Step.leftFew hEnough (Or.inr rfl)

/- A raise the stack covers makes its total the bet. -/
theorem roundBets_raise
    {p : PlayerId}
    {total : UInt32}
    (hEnough :
      total - s.roundBets.get p ≤ s.chips.get p) :
    (s.contribute p
      (total - s.roundBets.get p)).roundBets.get p =
        total := by
  rw [GameSession.contribute_roundBets, KeyMap.get_set_self,
    GameSession.actualAmount_eq hEnough, UInt32.add_comm,
    UInt32.sub_add_cancel]

/- A raise that passes all checks moves what it announced. -/
theorem acts_of_raise
    {p : PlayerId}
    {amount : Option UInt32}
    (hOk : s.applyRaise p amount = .ok t) :
    s.Acts p .raise amount t := by
  cases amount with
  | none => cases hOk
  | some total =>
      simp only [GameSession.applyRaise] at hOk
      by_cases hHigher : total ≤ s.currentBet
      · rw [if_pos hHigher] at hOk
        cases hOk
      rw [if_neg hHigher] at hOk
      by_cases hMore : total ≤ s.roundBets.get p
      · rw [if_pos hMore] at hOk
        cases hOk
      rw [if_neg hMore] at hOk
      by_cases hLow :
          total < s.currentBet + s.lastRaiseIncrement ∧
            total < s.roundBets.get p + s.chips.get p
      · rw [if_pos hLow] at hOk
        cases hOk
      rw [if_neg hLow] at hOk
      by_cases hShort :
          s.chips.get p < total - s.roundBets.get p
      · rw [if_pos hShort] at hOk
        cases hOk
      rw [if_neg hShort] at hOk
      have hHigher' := UInt32.not_le.mp hHigher
      have hMore' := UInt32.not_le.mp hMore
      have hEnough := UInt32.not_lt.mp hShort
      rw [roundBets_raise hEnough,
        (GameSession.contribute_frame ..).2.2.2.2.2.1,
        if_pos hHigher'] at hOk
      cases hOk
      refine GameSession.Acts.raise hHigher' hMore' ?_ hEnough
      rcases not_and_or.mp hLow with hMin | hAll
      · exact Or.inl (UInt32.not_lt.mp hMin)
      · exact Or.inr (UInt32.not_lt.mp hAll)

/-
  What the `switch` of `apply_action` lets through.  A raise
  it lets through moves exactly what it announced.
-/
theorem acts_of_ok
    {p : PlayerId}
    {action : Action}
    {amount : Option UInt32}
    (hOk : s.performAction p action amount = .ok t) :
    s.Acts p action amount t := by
  cases action with
  | fold =>
      cases hOk
      exact GameSession.Acts.fold
  | check =>
      simp only [GameSession.performAction] at hOk
      by_cases hLevel : s.currentBet = s.roundBets.get p
      · rw [if_neg (not_not.mpr hLevel)] at hOk
        cases hOk
        exact GameSession.Acts.check hLevel
      · rw [if_pos hLevel] at hOk
        cases hOk
  | call =>
      simp only [GameSession.performAction] at hOk
      by_cases hOwed : 0 < s.currentBet - s.roundBets.get p
      · rw [if_pos hOwed] at hOk
        cases hOk
        exact GameSession.Acts.call hOwed
      · rw [if_neg hOwed] at hOk
        cases hOk
        apply GameSession.Acts.callNothing
        rw [← UInt32.toNat_eq_zero_iff]
        rw [UInt32.pos_iff_toNat_pos] at hOwed
        omega
  | raise =>
      exact acts_of_raise hOk

/- The `switch` lets through whatever `Acts` lists. -/
theorem performAction_of_acts
    {p : PlayerId}
    {action : Action}
    {amount : Option UInt32}
    (hActs : s.Acts p action amount t) :
    s.performAction p action amount = .ok t := by
  cases hActs with
  | fold => rfl
  | check hLevel =>
      unfold GameSession.performAction
      dsimp only
      rw [if_neg (not_not.mpr hLevel)]
  | callNothing hLevel =>
      unfold GameSession.performAction
      dsimp only
      rw [if_neg (by rw [hLevel]; exact UInt32.lt_irrefl 0)]
  | call hOwed =>
      unfold GameSession.performAction
      dsimp only
      rw [if_pos hOwed]
  | raise hHigher hMore hMinimum hEnough =>
      unfold GameSession.performAction GameSession.applyRaise
      dsimp only
      rw [if_neg (UInt32.not_le.mpr hHigher),
        if_neg (UInt32.not_le.mpr hMore),
        if_neg (by
          rintro ⟨hLow, hShort⟩
          rcases hMinimum with hMin | hAll
          · exact UInt32.not_lt.mpr hMin hLow
          · exact UInt32.not_lt.mpr hAll hShort),
        if_neg (UInt32.not_lt.mpr hEnough),
        roundBets_raise hEnough,
        (GameSession.contribute_frame ..).2.2.2.2.2.1,
        if_pos hHigher]

/- An accepted action wins the pot or passes the turn on. -/
theorem afterAction_of_ok
    {p : PlayerId}
    {action : Action}
    {amount : Option UInt32}
    (hOk : s.afterAction p action amount =
      .ok (t, pending)) :
    ∃ u, (s.recordPlayerAction p action).Quiet u ∧
      ((u.countActivePlayers = 1 ∧ t = u ∧
          pending = .handleSingleWinner) ∨
        (u.countActivePlayers ≠ 1 ∧
          t = u.advanceToNextPlayer ∧
          u.advanceToNextPlayer.Closes pending)) := by
  unfold GameSession.afterAction at hOk
  refine ⟨_, GameSession.broadcastActionEvent_quiet
    (s.recordPlayerAction p action) (s.names p) action amount,
    ?_⟩
  dsimp only at hOk
  split at hOk
  next hOne =>
    cases hOk
    exact Or.inl ⟨hOne, rfl, rfl⟩
  next hMany =>
    rcases closes_of_ok hOk with ⟨rfl, hCloses⟩
    exact Or.inr ⟨hMany, rfl, hCloses⟩

/- A request is refused, or carried out. -/
theorem step_of_applyAction
    {connection : ConnId}
    {action : Action}
    {amount : Option UInt32}
    (hEnough : s.hasEnoughPlayers)
    (hOk : s.applyAction connection action amount =
      .ok (t, pending)) :
    Step ⟨s, .done⟩ (.applyAction connection action amount)
      ⟨t, pending⟩ := by
  unfold GameSession.applyAction at hOk
  cases hPlayer : s.getPlayer connection with
  | none =>
      rw [hPlayer] at hOk
      cases hOk
      exact Step.unmapped hEnough hPlayer
  | some p =>
      rw [hPlayer] at hOk
      rcases Except.bind_eq_ok.mp hOk with
        ⟨onTurn, hAt, hRest⟩
      rw [playerAt_eq_ok] at hAt
      by_cases hTurn : onTurn = p
      · subst hTurn
        rw [if_neg (not_not.mpr rfl)] at hRest
        cases hActs : s.performAction onTurn action amount with
        | error code =>
            rw [hActs] at hRest
            cases hRest
            exact Step.rejected hEnough hPlayer
        | ok u =>
            rw [hActs] at hRest
            have hActs' := acts_of_ok hActs
            rcases afterAction_of_ok hRest with
              ⟨v, hQuiet, hOutcome⟩
            rcases hOutcome with
              ⟨hOne, rfl, rfl⟩ | ⟨hMany, rfl, hCloses⟩
            · exact Step.wonByAction hEnough hPlayer hAt
                hActs' hQuiet hOne
            · exact Step.acted hEnough hPlayer hAt hActs'
                hQuiet hMany hCloses
      · rw [if_pos hTurn] at hRest
        cases hRest
        exact Step.rejected hEnough hPlayer

/- Whoever leaves is folded first. -/
theorem step_of_beginRemoval
    {leaver : Leaver}
    {current : PlayerId}
    (hEnough : s.hasEnoughPlayers)
    (hPlayer : s.getPlayer leaver.connection =
      some leaver.player)
    (hSeat : s.players[leaver.removedIndex]? =
      some leaver.player)
    (hCurrent : s.players[s.currentPlayerIndex]? =
      some current)
    (hWas : leaver.wasCurrent =
      decide (current = leaver.player)) :
    Step ⟨s, .done⟩ (.removePlayer leaver.connection)
      ⟨(s.beginRemoval leaver).1,
        (s.beginRemoval leaver).2⟩ := by
  unfold GameSession.beginRemoval
  by_cases hOne :
      (s.foldLeaver leaver.player).countActivePlayers = 1
  · rw [if_pos hOne]
    exact Step.leaving hEnough hPlayer hSeat hCurrent hWas
      (Or.inl ⟨hOne, rfl⟩)
  · rw [if_neg hOne]
    exact Step.leaving hEnough hPlayer hSeat hCurrent hWas
      (Or.inr ⟨hOne, rfl⟩)

/- Unless he does not sit here. -/
theorem step_of_removePlayer
    {connection : ConnId}
    (hEnough : s.hasEnoughPlayers)
    (hOk : s.removePlayer connection = .ok (t, pending)) :
    Step ⟨s, .done⟩ (.removePlayer connection)
      ⟨t, pending⟩ := by
  unfold GameSession.removePlayer at hOk
  cases hPlayer : s.getPlayer connection with
  | none =>
      rw [hPlayer] at hOk
      cases hOk
      exact Step.notSeated hEnough (by simp [hPlayer])
  | some p =>
      rw [hPlayer] at hOk
      cases hIndex : s.players.idxOf? p with
      | none =>
          simp only [hIndex] at hOk
          cases hOk
          refine Step.notSeated hEnough ?_
          rw [hPlayer]
          intro q hq
          cases hq
          exact List.idxOf?_eq_none_iff.mp hIndex
      | some index =>
          simp only [hIndex] at hOk
          rcases Except.bind_eq_ok.mp hOk with
            ⟨current, hAt, hRest⟩
          rw [playerAt_eq_ok] at hAt
          rcases List.idxOf?_eq_some_iff.mp hIndex with
            ⟨hLt, hGet, _⟩
          have hSeat : s.players[index]? = some p := by
            rw [List.getElem?_eq_getElem hLt, hGet]
          let leaver : Leaver :=
            ⟨p, connection, index, decide (current = p)⟩
          have hBegin :
              s.beginRemoval leaver = (t, pending) :=
            Except.ok.inj hRest
          have hStep : Step ⟨s, .done⟩
              (.removePlayer leaver.connection)
              ⟨(s.beginRemoval leaver).1,
                (s.beginRemoval leaver).2⟩ :=
            step_of_beginRemoval hEnough hPlayer hSeat hAt rfl
          rw [hBegin] at hStep
          exact hStep

/- The machine does nothing that `Step` does not list. -/
theorem step_of_ok
    {c d : Config}
    {e : Event}
    (hOk : c.step e = .ok d) :
    Step c e d := by
  rcases c with ⟨s, pending⟩
  rcases d with ⟨t, after⟩
  cases e with
  | proceed shuffle =>
      simp only [Config.step, Config.ofResult_eq_ok] at hOk
      cases pending with
      | done => cases hOk
      | start => exact step_of_start hOk
      | askCurrentPlayer =>
          exact step_of_askCurrentPlayer hOk
      | nextPhase => exact step_of_nextPhase hOk
      | doShowdown => exact step_of_doShowdown hOk
      | handleSingleWinner =>
          cases hOk
          exact Step.singleWinner
      | awardAllPots next =>
          simp only [GameSession.body] at hOk
          cases hAward : s.awardAllPots with
          | error exn =>
              rw [hAward] at hOk
              cases hOk
          | ok u =>
              rw [hAward] at hOk
              cases hOk
              exact step_of_awardAllPots hAward
      | resume next =>
          cases next with
          | tryStartNewHand =>
              have hResult := Except.ok.inj hOk
              have hStep : Step ⟨s, .resume .tryStartNewHand⟩
                  (.proceed shuffle)
                  ⟨s.tryStartNewHand.1,
                    s.tryStartNewHand.2⟩ :=
                step_of_tryStartNewHand
              rw [hResult] at hStep
              exact hStep
          | finishRemoval leaver =>
              exact step_of_finishRemoval hOk
  | applyAction connection action amount =>
      simp only [Config.step] at hOk
      by_cases hIdle : Config.Idle ⟨s, pending⟩
      · rw [if_pos hIdle, Config.ofResult_eq_ok] at hOk
        rcases hIdle with ⟨hDone, hEnough⟩
        cases hDone
        exact step_of_applyAction hEnough hOk
      · rw [if_neg hIdle] at hOk
        cases hOk
  | removePlayer connection =>
      simp only [Config.step] at hOk
      by_cases hIdle : Config.Idle ⟨s, pending⟩
      · rw [if_pos hIdle, Config.ofResult_eq_ok] at hOk
        rcases hIdle with ⟨hDone, hEnough⟩
        cases hDone
        exact step_of_removePlayer hEnough hOk
      · rw [if_neg hIdle] at hOk
        cases hOk

end Inversion

end Server

end Poker
