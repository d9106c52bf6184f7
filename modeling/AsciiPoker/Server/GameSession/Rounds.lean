import AsciiPoker.Library.Since
import AsciiPoker.Server.GameSession.Balances
import AsciiPoker.Server.GameSession.Bets
import AsciiPoker.Server.GameSession.HandEnds

/-
  When a betting round is over.

  The record of who has acted is cleared when a round opens
  and when the bet is raised, so it tells who has acted since
  the last raise of the round.  Whoever is on it and can act
  has matched the bet, and the round is over when everybody
  who can act is on it.

  Main declarations:
    * `Config.Makes`, `Config.OpensRound`
    * `ActedInRound`, `GameSession.Settled`
    * `Table.Run.mem_playersActed_iff`
    * `Table.Run.roundCloses`
-/

namespace Poker

namespace Server

open Protocol

------------------------------------------------------------
-- Actions in a Round
------------------------------------------------------------

namespace Config

variable {c d : Config}
variable {e : Event}
variable {p q : PlayerId}
variable {action action' : Action}

/- The player on turn makes an action, and it is accepted. -/
def Makes
    (c : Config)
    (e : Event)
    (p : PlayerId)
    (action : Action) : Prop :=
  ∃ connection amount t,
    e = .applyAction connection action amount ∧
    c.session.getPlayer connection = some p ∧
    c.session.players[c.session.currentPlayerIndex]? =
      some p ∧
    c.session.performAction p action amount = .ok t

/- A hand is dealt, or a street among whoever is left. -/
def OpensRound
    (c : Config) : Prop :=
  c.pending = .start ∨
    (c.pending = .nextPhase ∧
      c.session.countActivePlayers ≠ 1 ∧
      c.session.phase ∈
        [GamePhase.preFlop, GamePhase.flop, GamePhase.turn])

/- `p` makes an action, and it is accepted. -/
def MadeBy
    (p : PlayerId)
    (x : Config × Event) : Prop :=
  ∃ action, x.1.Makes x.2 p action

/- The round goes on, and the bet is not raised. -/
def KeepsRound
    (x : Config × Event) : Prop :=
  ¬ x.1.OpensRound ∧ ∀ q, ¬ x.1.Makes x.2 q .raise

theorem Makes.accepts
    (hMakes : c.Makes e p action) :
    c.Accepts e := by
  rcases hMakes with
    ⟨connection, amount, t, rfl, hPlayer, hAt, hPerformed⟩
  exact ⟨p, t, hPlayer, hAt, hPerformed⟩

/- One event is one action of one player. -/
theorem Makes.unique
    (hMakes : c.Makes e p action)
    (hOther : c.Makes e q action') :
    q = p ∧ action' = action := by
  rcases hMakes with ⟨_, _, _, rfl, hPlayer, _, _⟩
  rcases hOther with ⟨_, _, _, hEvent, hPlayer', _, _⟩
  cases hEvent
  rw [hPlayer] at hPlayer'
  exact ⟨(Option.some.inj hPlayer').symm, rfl⟩

/- An accepted action leaves a call to run. -/
theorem Makes.pending_ne_done
    (hMakes : c.Makes e p action)
    (hOk : c.step e = .ok d) :
    d.pending ≠ .done := by
  have hDone := Config.pending_of_accepts hMakes.accepts hOk
  rcases c with ⟨s, pending⟩
  subst hDone
  rcases hMakes.accepts.outcome hOk with
    ⟨_, _, _, _, _, _, _, _,
      ⟨_, rfl⟩ | ⟨_, pending, hCloses, rfl⟩⟩
  · exact Pending.noConfusion
  · rcases hCloses with ⟨_, rfl⟩ | ⟨_, rfl⟩
    · exact Pending.noConfusion
    · exact Pending.noConfusion

end Config

/-
  In this round `p` has made an action that was accepted, and
  no raise was accepted after it.
-/
def ActedInRound
    (trace : List (Config × Event))
    (p : PlayerId) : Prop :=
  Transition.Since (Config.MadeBy p) Config.KeepsRound trace

namespace GameSession

variable {s t u : GameSession}
variable {p q : PlayerId}
variable {action : Action}
variable {amount : Option UInt32}

/- He has acted since the last raise and matched the bet. -/
def Settled
    (s : GameSession)
    (trace : List (Config × Event))
    (p : PlayerId) : Prop :=
  ActedInRound trace p ∧ s.roundBets.get p = s.currentBet

/- Whoever can act and has acted has matched the bet. -/
def Levelled
    (s : GameSession) : Prop :=
  ∀ p ∈ s.players, s.canPlayerAct p →
    p ∈ s.playersActed → s.roundBets.get p = s.currentBet

------------------------------------------------------------
-- Recording an Action
------------------------------------------------------------

theorem Acts.playersActed_eq
    (hActs : s.Acts p action amount t) :
    t.playersActed = s.playersActed := by
  cases hActs with
  | fold => rfl
  | check => rfl
  | callNothing => rfl
  | call => exact s.contribute_playersActed p _
  | raise => exact s.contribute_playersActed p _

/- A raise is all that is on record after it. -/
theorem Acts.mem_recorded
    (hActs : s.Acts p action amount t) :
    q ∈ (t.recordPlayerAction p action).playersActed ↔
      q = p ∨ q ∈ s.playersActed ∧ action ≠ .raise := by
  unfold recordPlayerAction
  rw [hActs.playersActed_eq, Finset.mem_insert]
  by_cases hRaise : action = .raise
  · simp [hRaise]
  · simp [hRaise]

/- Whoever acts and still can has matched the bet. -/
theorem Acts.matched
    (hActs : s.Acts p action amount t)
    (hCan : t.canPlayerAct p) :
    t.roundBets.get p = t.currentBet := by
  cases hActs with
  | fold => exact absurd (Finset.mem_insert_self ..) hCan.1
  | check hLevel => exact hLevel.symm
  | callNothing hLevel =>
      have hSplit := UInt32.sub_add_cancel s.currentBet
        (s.roundBets.get p)
      rw [hLevel, UInt32.zero_add] at hSplit
      exact hSplit
  | call hOwed =>
      -- Even an amount that wraps around levels the bet.
      rw [(s.contribute_frame p _).2.2.2.2.2.1]
      rcases s.mem_allIn_contribute p
          (s.currentBet - s.roundBets.get p) with
        hAll | hAllIn
      · exact contribute_levels hAll
      · exact absurd hAllIn hCan.2
  | raise hHigher hMore hMinimum hEnough =>
      exact roundBets_raise hEnough

/- Anybody else is as he was, unless the bet is raised. -/
theorem Acts.others
    (hActs : s.Acts p action amount t)
    (hCalm : action ≠ .raise)
    (hNe : q ≠ p) :
    (t.canPlayerAct q → s.canPlayerAct q) ∧
      t.roundBets.get q = s.roundBets.get q ∧
      t.currentBet = s.currentBet := by
  cases hActs with
  | fold =>
      refine ⟨?_, rfl, rfl⟩
      rintro ⟨hIn, hChips⟩
      exact ⟨fun h => hIn (Finset.mem_insert_of_mem h), hChips⟩
  | check => exact ⟨id, rfl, rfl⟩
  | callNothing => exact ⟨id, rfl, rfl⟩
  | call =>
      have hFrame := s.contribute_frame p
        (s.currentBet - s.roundBets.get p)
      refine ⟨?_, roundBets_contribute_of_ne hNe,
        hFrame.2.2.2.2.2.1⟩
      unfold canPlayerAct
      rw [hFrame.2.2.2.2.1, mem_allIn_contribute_of_ne s _ hNe]
      exact id
  | raise => exact absurd rfl hCalm

/- An action keeps those on record level with the bet. -/
theorem Acts.levelled
    (hActs : s.Acts p action amount t)
    (hLevelled : s.Levelled) :
    (t.recordPlayerAction p action).Levelled := by
  intro q hq hCan hActed
  change q ∈ t.players at hq
  change t.canPlayerAct q at hCan
  change t.roundBets.get q = t.currentBet
  rw [hActs.frame.1] at hq
  rcases hActs.mem_recorded.mp hActed with
    rfl | ⟨hBefore, hCalm⟩
  · exact hActs.matched hCan
  by_cases hEq : q = p
  · subst hEq
    exact hActs.matched hCan
  · rcases hActs.others hCalm hEq with
      ⟨hCould, hBet, hMatch⟩
    rw [hBet, hMatch]
    exact hLevelled q hq (hCould hCan) hBefore

theorem levelled_of_nobody
    (hNobody : s.playersActed = ∅) :
    s.Levelled := by
  intro p _ _ hActed
  rw [hNobody] at hActed
  exact absurd hActed (Finset.notMem_empty p)

theorem clearBets_levelled
    (s : GameSession) :
    s.clearBets.Levelled :=
  fun p _ _ _ =>
    KeyMap.get_mapValues_default s.roundBets p

------------------------------------------------------------
-- Departures
------------------------------------------------------------

variable {leaver : Leaver}

theorem mem_playersActed_vacate
    (hNe : p ≠ leaver.player) :
    p ∈ (s.vacate leaver).playersActed ↔
      p ∈ s.playersActed := by
  rcases s.vacate_eq leaver with ⟨_, _, h, _⟩
  rw [h]
  exact Finset.mem_erase.trans (and_iff_right hNe)

theorem Levelled.vacate
    (hLevelled : s.Levelled)
    (hNodup : s.players.Nodup)
    (hAt : s.players[leaver.removedIndex]? =
      some leaver.player) :
    (s.vacate leaver).Levelled := by
  intro p hp hCan hActed
  rw [vacate_players] at hp
  rcases (mem_eraseIdx hNodup hAt).mp hp with ⟨hMem, hNe⟩
  rw [mem_playersActed_vacate hNe] at hActed
  rw [vacate_roundBets, vacate_currentBet,
    KeyMap.get_erase_of_ne _ hNe]
  refine hLevelled p hMem ?_ hActed
  rcases s.vacate_eq leaver with ⟨_, _, h, _⟩
  rw [h] at hCan
  exact ⟨fun hIn => hCan.1 (Finset.mem_erase.mpr ⟨hNe, hIn⟩),
    fun hIn => hCan.2 (Finset.mem_erase.mpr ⟨hNe, hIn⟩)⟩

end GameSession

------------------------------------------------------------
-- Steps
------------------------------------------------------------

namespace Config

variable {c d : Config}
variable {e : Event}
variable {p : PlayerId}

/-
  What a step makes of the record about a player: an action
  puts him on it, a raise or a new round takes the others
  off.
-/
def Records
    (c : Config)
    (e : Event)
    (t : GameSession)
    (p : PlayerId) : Prop :=
  p ∈ t.playersActed ↔
    MadeBy p (c, e) ∨
      p ∈ c.session.playersActed ∧ KeepsRound (c, e)

/- A call that was left to run is no action of a player. -/
theorem not_makes_proceed
    {shuffle : Shuffle} :
    ∀ q action, ¬ c.Makes (.proceed shuffle) q action := by
  rintro q action ⟨_, _, _, hEvent, _⟩
  cases hEvent

theorem not_makes_removePlayer
    {connection : ConnId} :
    ∀ q action,
      ¬ c.Makes (.removePlayer connection) q action := by
  rintro q action ⟨_, _, _, hEvent, _⟩
  cases hEvent

/- A step within a round in which nobody acts. -/
theorem records_of_same
    {t : GameSession}
    (hNone : ∀ q action, ¬ c.Makes e q action)
    (hStart : c.pending ≠ .start)
    (hNext : c.pending = .nextPhase → ¬ c.OpensRound)
    (hSame : p ∈ t.playersActed ↔
      p ∈ c.session.playersActed) :
    c.Records e t p := by
  have hOpen : ¬ c.OpensRound := by
    rintro (hHere | hDeals)
    · exact hStart hHere
    · exact hNext hDeals.1 (Or.inr hDeals)
  unfold Records
  rw [hSame]
  constructor
  · intro hActed
    exact Or.inr ⟨hActed, hOpen, fun q => hNone q .raise⟩
  · rintro (⟨action, hMakes⟩ | ⟨hActed, _⟩)
    · exact absurd hMakes (hNone p action)
    · exact hActed

/- A step that opens a round clears the record. -/
theorem records_of_opens
    {t : GameSession}
    (hNone : ∀ q action, ¬ c.Makes e q action)
    (hOpens : c.OpensRound)
    (hClear : t.playersActed = ∅) :
    c.Records e t p := by
  unfold Records
  rw [hClear]
  refine iff_of_false (Finset.notMem_empty p) ?_
  rintro (⟨action, hMakes⟩ | ⟨_, hNot, _⟩)
  · exact hNone p action hMakes
  · exact hNot hOpens

/- An accepted action is put on record. -/
theorem records_of_acts
    {s t : GameSession}
    {q : PlayerId}
    {connection : ConnId}
    {action : Action}
    {amount : Option UInt32}
    (hPlayer : s.getPlayer connection = some q)
    (hAt : s.players[s.currentPlayerIndex]? = some q)
    (hActs : s.Acts q action amount t) :
    Records ⟨s, .done⟩ (.applyAction connection action amount)
      (t.recordPlayerAction q action) p := by
  have hMakes : Makes ⟨s, .done⟩
      (.applyAction connection action amount) q action :=
    ⟨connection, amount, t, rfl, hPlayer, hAt,
      performAction_of_acts hActs⟩
  have hOpen : ¬ OpensRound ⟨s, .done⟩ := by
    rintro (hStart | ⟨hNext, _⟩)
    · cases hStart
    · cases hNext
  unfold Records
  rw [hActs.mem_recorded]
  refine or_congr ?_ (and_congr_right fun _ => ?_)
  · constructor
    · rintro rfl
      exact ⟨action, hMakes⟩
    · rintro ⟨other, hOther⟩
      exact (hMakes.unique hOther).1
  · constructor
    · intro hCalm
      refine ⟨hOpen, fun r hRaise => hCalm ?_⟩
      exact (hMakes.unique hRaise).2.symm
    · rintro ⟨_, hNoRaise⟩ rfl
      exact hNoRaise q hMakes

/- Every step keeps the record of those who stay. -/
theorem records_of_ok
    (hSeated : c.Seated)
    (hOk : c.step e = .ok d)
    (hStays : p ∈ d.session.players) :
    c.Records e d.session p := by
  have hNodup := hSeated.nodup
  have hLeaver := hSeated.leaver
  have hNone : d.pending = .done →
      ∀ q action, ¬ c.Makes e q action := by
    intro hRests q action hMakes
    exact hMakes.pending_ne_done hOk hRests
  have hVacate : ∀ leaver : Leaver,
      c.pending = .resume (.finishRemoval leaver) →
      p ∈ (c.session.vacate leaver).players →
      (p ∈ (c.session.vacate leaver).playersActed ↔
        p ∈ c.session.playersActed) := by
    intro leaver hPending hp
    have hAt := (hLeaver leaver (by rw [hPending]; rfl)).1
    rw [GameSession.vacate_players,
      GameSession.mem_eraseIdx hNodup hAt] at hp
    exact GameSession.mem_playersActed_vacate hp.2
  have hStep := step_of_ok hOk
  cases hStep with
  | started hDealt hPosted hQuiet =>
      rcases hQuiet with ⟨_, _, rfl, _⟩
      exact records_of_opens not_makes_proceed (Or.inl rfl) rfl
  | asked hAt hAct =>
      exact records_of_same not_makes_proceed (by simp)
        (by simp) Iff.rfl
  | passedOver hAt hAct hCloses =>
      exact records_of_same not_makes_proceed (by simp)
        (by simp) Iff.rfl
  | wonByFold hOne =>
      refine records_of_same not_makes_proceed (by simp) ?_
        Iff.rfl
      rintro _ (hStart | ⟨_, hMany, _⟩)
      · cases hStart
      · exact hMany hOne
  | street hMany hPhase hDeal hQuiet =>
      rcases hQuiet with ⟨_, _, rfl, _⟩
      refine records_of_opens not_makes_proceed ?_ rfl
      refine Or.inr ⟨rfl, hMany, ?_⟩
      simp only [List.mem_cons, Prod.mk.injEq,
        List.not_mem_nil, or_false] at hPhase ⊢
      rcases hPhase with ⟨h, _⟩ | ⟨h, _⟩ | ⟨h, _⟩
      · exact Or.inl h
      · exact Or.inr (Or.inl h)
      · exact Or.inr (Or.inr h)
  | riverClosed hMany hPhase =>
      refine records_of_same not_makes_proceed (by simp) ?_
        Iff.rfl
      rintro _ (hStart | ⟨_, _, hStreet⟩)
      · cases hStart
      · simp [hPhase] at hStreet
  | pastShowdown hMany hPhase =>
      refine records_of_same not_makes_proceed (by simp) ?_
        Iff.rfl
      rintro _ (hStart | ⟨_, _, hStreet⟩)
      · cases hStart
      · simp [hPhase] at hStreet
  | shownDown hQuiet hPending =>
      rcases hQuiet with ⟨_, _, rfl, _⟩
      exact records_of_same not_makes_proceed (by simp)
        (by simp) Iff.rfl
  | singleWinner =>
      exact records_of_same not_makes_proceed (by simp)
        (by simp) Iff.rfl
  | awardedNothing hEmpty =>
      exact records_of_same not_makes_proceed (by simp)
        (by simp) Iff.rfl
  | awarded hFull hPaid hQuiet =>
      rcases hQuiet with ⟨_, _, rfl, _⟩
      rcases GameSession.payPots_frame hPaid with ⟨chips, hEq⟩
      refine records_of_same not_makes_proceed (by simp)
        (by simp) ?_
      dsimp only
      rw [hEq]
  | handOver hEnough hChips =>
      exact records_of_same not_makes_proceed (by simp)
        (by simp) Iff.rfl
  | gameOver hOver =>
      exact records_of_same not_makes_proceed (by simp)
        (by simp) Iff.rfl
  | @leftFew s t leaver shuffle hFew hErased =>
      refine records_of_same not_makes_proceed (by simp)
        (by simp) ?_
      have hSame := hVacate leaver rfl
      rcases hErased with rfl | rfl
      · apply hSame
        rw [GameSession.vacate_players,
          ← GameSession.eraseLeaver_players]
        exact hStays
      · exact hSame hStays
  | leftOneActive hEnough hOne =>
      exact records_of_same not_makes_proceed (by simp)
        (by simp) (hVacate _ rfl hStays)
  | leftClosing hEnough hMany hCloses =>
      exact records_of_same not_makes_proceed (by simp)
        (by simp) (hVacate _ rfl hStays)
  | leftWaiting hEnough hMany hOther hOpen hQuiet =>
      rcases hQuiet with ⟨_, _, rfl, _⟩
      exact records_of_same not_makes_proceed (by simp)
        (by simp) (hVacate _ rfl hStays)
  | unmapped hEnough hNone =>
      exact records_of_same (hNone rfl) (by simp)
        (by simp) Iff.rfl
  | rejected hEnough hPlayer =>
      exact records_of_same (hNone rfl) (by simp)
        (by simp) Iff.rfl
  | wonByAction hEnough hPlayer hAt hActs hQuiet hOne =>
      rcases hQuiet with ⟨_, _, rfl, _⟩
      exact records_of_acts hPlayer hAt hActs
  | acted hEnough hPlayer hAt hActs hQuiet hMany hCloses =>
      rcases hQuiet with ⟨_, _, rfl, _⟩
      exact records_of_acts hPlayer hAt hActs
  | notSeated hEnough hNone =>
      exact records_of_same not_makes_removePlayer (by simp)
        (by simp) Iff.rfl
  | leaving hEnough hPlayer hAt hCurrent hWas hPending =>
      exact records_of_same not_makes_removePlayer (by simp)
        (by simp) Iff.rfl

/-
  While a call is left to run, either the round has just been
  opened or it was checked whether it is over; when a call
  returns within a hand, the round waits for somebody.
-/
def AwaitsSomebody
    (c : Config) : Prop :=
  match c.pending with
  | .askCurrentPlayer =>
      c.session.playersActed = ∅ ∨
        c.session.isRoundComplete = .ok false
  | .nextPhase => c.session.isRoundComplete = .ok true
  | .done => c.session.InProgress → ∃ p, p ∈ c.session.toAct
  | _ => True

end Config

theorem GameSession.Closes.awaitsSomebody
    {s : GameSession}
    {pending : Pending}
    (hCloses : s.Closes pending) :
    Config.AwaitsSomebody ⟨s, pending⟩ := by
  rcases hCloses with ⟨hComplete, rfl⟩ | ⟨hOpen, rfl⟩
  · exact hComplete
  · exact Or.inr hOpen

/- Every step leaves a hand waiting for somebody. -/
theorem Config.AwaitsSomebody.step
    {c d : Config}
    {e : Event}
    (hOrder : c.InOrder)
    (hWaits : c.AwaitsSomebody)
    (hStep : Step c e d) :
    d.AwaitsSomebody := by
  have hStaged := hOrder.2
  cases hStep with
  | started hDealt hPosted hQuiet =>
      rcases hQuiet with ⟨_, _, rfl, _⟩
      exact Or.inl rfl
  | @asked s p shuffle hAt hAct =>
      intro _
      suffices hSome : ∃ q, q ∈ s.toAct by
        exact hSome
      rcases hWaits with hNobody | hOpen
      · have hNew : p ∉ s.playersActed := by
          rw [hNobody]
          exact Finset.notMem_empty p
        exact ⟨p, GameSession.mem_toAct.mpr
          ⟨List.mem_of_getElem? hAt, hAct, Or.inl hNew⟩⟩
      · exact GameSession.toAct_of_open hOpen
  | passedOver hAt hAct hCloses => exact hCloses.awaitsSomebody
  | wonByFold hOne => trivial
  | street hMany hPhase hDeal hQuiet =>
      rcases hQuiet with ⟨_, _, rfl, _⟩
      exact Or.inl rfl
  | riverClosed hMany hPhase => trivial
  | pastShowdown hMany hPhase =>
      rintro ⟨hNot, _⟩
      exact absurd hPhase hNot
  | shownDown hQuiet hPending =>
      rcases hPending with ⟨_, rfl⟩ | ⟨_, rfl⟩ | ⟨_, rfl⟩
      · trivial
      · trivial
      · trivial
  | singleWinner => trivial
  | awardedNothing hEmpty => trivial
  | awarded hFull hPaid hQuiet => trivial
  | handOver hEnough hChips => trivial
  | gameOver hOver =>
      -- The hand was shown down, or won by the last one in.
      rintro ⟨hNot, hTwo⟩
      rcases hStaged with ⟨_, hShowdown | hOne⟩
      · exact absurd hShowdown hNot
      · dsimp only at hOne hTwo
        omega
  | leftFew hFew hErased =>
      intro hProgress
      exact absurd hProgress.hasEnoughPlayers hFew
  | leftOneActive hEnough hOne => trivial
  | leftClosing hEnough hMany hCloses => exact hCloses.awaitsSomebody
  | @leftWaiting s t leaver shuffle hEnough hMany hOther hOpen
      hQuiet =>
      rcases hQuiet with ⟨_, _, rfl, _⟩
      intro _
      have hSome := GameSession.toAct_of_open hOpen
      exact hSome
  | unmapped hEnough hNone => exact hWaits
  | rejected hEnough hPlayer => exact hWaits
  | wonByAction hEnough hPlayer hAt hActs hQuiet hOne =>
      trivial
  | acted hEnough hPlayer hAt hActs hQuiet hMany hCloses =>
      exact hCloses.awaitsSomebody
  | notSeated hEnough hNone => exact hWaits
  | leaving hEnough hPlayer hAt hCurrent hWas hPending =>
      rcases hPending with ⟨_, rfl⟩ | ⟨_, rfl⟩
      · trivial
      · trivial

/- Every step keeps those on record level with the bet. -/
theorem GameSession.Levelled.step
    {c d : Config}
    {e : Event}
    (hSeated : c.Seated)
    (hLevelled : c.session.Levelled)
    (hStep : Step c e d) :
    d.session.Levelled := by
  have hNodup := hSeated.nodup
  have hLeaver := hSeated.leaver
  cases hStep with
  | started hDealt hPosted hQuiet =>
      rcases hQuiet with ⟨_, _, rfl, _⟩
      exact GameSession.levelled_of_nobody rfl
  | asked hAt hAct => exact hLevelled
  | passedOver hAt hAct hCloses => exact hLevelled
  | wonByFold hOne => exact hLevelled
  | street hMany hPhase hDeal hQuiet =>
      rcases hQuiet with ⟨_, _, rfl, _⟩
      exact GameSession.levelled_of_nobody rfl
  | riverClosed hMany hPhase =>
      exact GameSession.clearBets_levelled _
  | pastShowdown hMany hPhase =>
      exact GameSession.clearBets_levelled _
  | shownDown hQuiet hPending =>
      rcases hQuiet with ⟨_, _, rfl, _⟩
      exact hLevelled
  | singleWinner => exact hLevelled
  | awardedNothing hEmpty => exact hLevelled
  | awarded hFull hPaid hQuiet =>
      rcases hQuiet with ⟨_, _, rfl, _⟩
      rcases GameSession.payPots_frame hPaid with ⟨chips, hEq⟩
      rw [hEq]
      exact hLevelled
  | handOver hEnough hChips => exact hLevelled
  | gameOver hOver => exact hLevelled
  | leftFew hFew hErased =>
      have hAt := (hLeaver _ rfl).1
      have hVacated := hLevelled.vacate hNodup hAt
      rcases hErased with rfl | rfl
      · exact hVacated
      · exact hVacated
  | leftOneActive hEnough hOne =>
      exact hLevelled.vacate hNodup (hLeaver _ rfl).1
  | leftClosing hEnough hMany hCloses =>
      exact hLevelled.vacate hNodup (hLeaver _ rfl).1
  | leftWaiting hEnough hMany hOther hOpen hQuiet =>
      have hAt := (hLeaver _ rfl).1
      rcases hQuiet with ⟨_, _, rfl, _⟩
      exact hLevelled.vacate hNodup hAt
  | unmapped hEnough hNone => exact hLevelled
  | rejected hEnough hPlayer => exact hLevelled
  | wonByAction hEnough hPlayer hAt hActs hQuiet hOne =>
      have hActed := hActs.levelled hLevelled
      rcases hQuiet with ⟨_, _, rfl, _⟩
      exact hActed
  | acted hEnough hPlayer hAt hActs hQuiet hMany hCloses =>
      have hActed := hActs.levelled hLevelled
      rcases hQuiet with ⟨_, _, rfl, _⟩
      exact hActed
  | notSeated hEnough hNone => exact hLevelled
  | leaving hEnough hPlayer hAt hCurrent hWas hPending =>
      -- Whoever folds cannot act, and nobody else is touched.
      intro p hp hCan hActed
      refine hLevelled p hp ⟨?_, hCan.2⟩ hActed
      exact fun hIn => hCan.1 (Finset.mem_insert_of_mem hIn)

------------------------------------------------------------
-- Runs
------------------------------------------------------------

/- A street is dealt, or the showdown is entered. -/
def Config.GoesOn
    (c d : Config) : Prop :=
  (c.pending ≠ .start ∧
      c.session.communityCards.length <
        d.session.communityCards.length) ∨
    d.pending = .doShowdown

/- Both are done when the round is found to be over. -/
theorem Step.pending_of_goesOn
    {c d : Config}
    {e : Event}
    (hStep : Step c e d)
    (hGoesOn : c.GoesOn d) :
    c.pending = .nextPhase := by
  have hSame : c.session.communityCards =
        d.session.communityCards →
      d.pending ≠ .doShowdown → False := by
    rintro hBoard hNot
    rcases hGoesOn with ⟨_, hMore⟩ | hShow
    · rw [hBoard] at hMore
      exact Nat.lt_irrefl _ hMore
    · exact hNot hShow
  have hClosed : ∀ {s : GameSession} {pending : Pending},
      s.Closes pending → pending ≠ .doShowdown := by
    rintro s pending (⟨_, rfl⟩ | ⟨_, rfl⟩)
    · exact Pending.noConfusion
    · exact Pending.noConfusion
  cases hStep with
  | started hDealt hPosted hQuiet =>
      rcases hGoesOn with ⟨hOpen, _⟩ | hShow
      · exact absurd rfl hOpen
      · cases hShow
  | asked hAt hAct => exact (hSame rfl (by simp)).elim
  | passedOver hAt hAct hCloses =>
      exact (hSame rfl (hClosed hCloses)).elim
  | wonByFold hOne => rfl
  | street hMany hPhase hDeal hQuiet => rfl
  | riverClosed hMany hPhase => rfl
  | pastShowdown hMany hPhase => rfl
  | shownDown hQuiet hPending =>
      rcases hQuiet with ⟨_, _, rfl, _⟩
      refine (hSame rfl ?_).elim
      rcases hPending with ⟨_, rfl⟩ | ⟨_, rfl⟩ | ⟨_, rfl⟩
      · exact Pending.noConfusion
      · exact Pending.noConfusion
      · exact Pending.noConfusion
  | singleWinner => exact (hSame rfl (by simp)).elim
  | awardedNothing hEmpty => exact (hSame rfl (by simp)).elim
  | awarded hFull hPaid hQuiet =>
      rcases hQuiet with ⟨_, _, rfl, _⟩
      rcases GameSession.payPots_frame hPaid with ⟨chips, hEq⟩
      refine (hSame ?_ (by simp)).elim
      dsimp only
      rw [hEq]
  | handOver hEnough hChips =>
      exact (hSame rfl (by simp)).elim
  | gameOver hOver => exact (hSame rfl (by simp)).elim
  | leftFew hFew hErased =>
      refine (hSame ?_ (by simp)).elim
      rcases hErased with rfl | rfl
      · exact (GameSession.vacate_communityCards ..).symm
      · exact (GameSession.vacate_communityCards ..).symm
  | leftOneActive hEnough hOne =>
      exact (hSame (GameSession.vacate_communityCards ..).symm
        (by simp)).elim
  | leftClosing hEnough hMany hCloses =>
      exact (hSame (GameSession.vacate_communityCards ..).symm
        (hClosed hCloses)).elim
  | leftWaiting hEnough hMany hOther hOpen hQuiet =>
      rcases hQuiet with ⟨_, _, rfl, _⟩
      exact (hSame (GameSession.vacate_communityCards ..).symm
        (by simp)).elim
  | unmapped hEnough hNone => exact (hSame rfl (by simp)).elim
  | rejected hEnough hPlayer =>
      exact (hSame rfl (by simp)).elim
  | wonByAction hEnough hPlayer hAt hActs hQuiet hOne =>
      rcases hQuiet with ⟨_, _, rfl, _⟩
      exact (hSame hActs.sameCards.communityCards.symm
        (by simp)).elim
  | acted hEnough hPlayer hAt hActs hQuiet hMany hCloses =>
      rcases hQuiet with ⟨_, _, rfl, _⟩
      exact (hSame hActs.sameCards.communityCards.symm
        (hClosed hCloses)).elim
  | notSeated hEnough hNone =>
      exact (hSame rfl (by simp)).elim
  | leaving hEnough hPlayer hAt hCurrent hWas hPending =>
      refine (hSame rfl ?_).elim
      rcases hPending with ⟨_, rfl⟩ | ⟨_, rfl⟩
      · exact Pending.noConfusion
      · exact Pending.noConfusion

section Runs

variable {table : Table}
variable {trace : List (Config × Event)}
variable {c : Config}
variable {p : PlayerId}

/-
  Of the players who are still seated, those on record are
  those who have acted since the last raise of the round.
-/
theorem Table.Run.mem_playersActed_iff
    (run : table.Run trace c)
    (hSeated : p ∈ c.session.players) :
    p ∈ c.session.playersActed ↔ ActedInRound trace p := by
  let Live : Config → Prop := fun c => p ∈ c.session.players
  let Holds : Config → Prop :=
    fun c => p ∈ c.session.playersActed
  have hInv : ∀ (c : Config) (e : Event) (d : Config),
      c.Seated → c.step e = .ok d → d.Seated := by
    intro c e d hSeated hOk
    exact hSeated.step (step_of_ok hOk)
  have hLive : ∀ (c : Config) (e : Event) (d : Config),
      c.Seated → c.step e = .ok d → Live d → Live c := by
    intro c e d _ hOk hStays
    exact (step_of_ok hOk).keeps.players hStays
  have hKeep : ∀ (c : Config) (e : Event) (d : Config),
      c.Seated → c.step e = .ok d → Live d →
      (Holds d ↔ Config.MadeBy p (c, e) ∨
        Holds c ∧ Config.KeepsRound (c, e)) := by
    intro c e d hSeated hOk hStays
    exact Config.records_of_ok hSeated hOk hStays
  have hNobody : ¬ Holds table.opening :=
    Finset.notMem_empty p
  exact Transition.Run.since hInv hLive hKeep run
    table.opening_seated hNobody hSeated

/-
  In every run, a street is dealt or the showdown entered
  among two or more only when everybody who can act has acted
  since the last raise of the round and has matched the bet;
  and when a call returns with the hand in progress, somebody
  who can act has not.  Nobody has when a hand is dealt, not
  even the big blind, and after a raise only the raiser has.
-/
theorem Table.Run.roundCloses
    (run : table.Run trace c) :
    (∀ e d, c.step e = .ok d → c.GoesOn d →
        2 ≤ c.session.countActivePlayers →
        ∀ p ∈ c.session.players, c.session.canPlayerAct p →
          c.session.Settled trace p) ∧
      (c.pending = .done → c.session.InProgress →
        ∃ p ∈ c.session.players, c.session.canPlayerAct p ∧
          ¬ c.session.Settled trace p) ∧
      (∀ e d, c.step e = .ok d → c.pending = .start →
        ∀ p, ¬ d.session.Settled (trace ++ [(c, e)]) p) ∧
      (∀ e d q, c.step e = .ok d → c.Makes e q .raise →
        ∀ p, p ≠ q →
          ¬ d.session.Settled (trace ++ [(c, e)]) p) := by
  have hInv : ∀ (c : Config) (e : Event) (d : Config),
      c.InOrder ∧ c.session.Levelled ∧ c.AwaitsSomebody →
      c.step e = .ok d →
      d.InOrder ∧ d.session.Levelled ∧ d.AwaitsSomebody := by
    rintro c e d ⟨hOrder, hLevelled, hWaits⟩ hOk
    have hStep := step_of_ok hOk
    exact ⟨hOrder.step hOk, hLevelled.step hOrder.1 hStep,
      hWaits.step hOrder hStep⟩
  have hStart : table.opening.InOrder ∧
      table.opening.session.Levelled ∧
      table.opening.AwaitsSomebody :=
    ⟨table.opening_inOrder,
      GameSession.levelled_of_nobody rfl, trivial⟩
  rcases run.invariant_of_step hInv hStart with
    ⟨hOrder, hLevelled, hWaits⟩
  refine ⟨?_, ?_, ?_, ?_⟩
  · intro e d hOk hGoesOn hMany p hSeated hCan
    have hNext := (step_of_ok hOk).pending_of_goesOn hGoesOn
    unfold Config.AwaitsSomebody at hWaits
    rw [hNext] at hWaits
    have hNobody :=
      GameSession.toAct_of_complete hMany hWaits
    have hActed : p ∈ c.session.playersActed := by
      by_contra hNot
      have hMem : p ∈ c.session.toAct :=
        GameSession.mem_toAct.mpr
          ⟨hSeated, hCan, Or.inl hNot⟩
      rw [hNobody] at hMem
      exact Finset.notMem_empty p hMem
    exact ⟨(run.mem_playersActed_iff hSeated).mp hActed,
      hLevelled p hSeated hCan hActed⟩
  · intro hDone hProgress
    unfold Config.AwaitsSomebody at hWaits
    rw [hDone] at hWaits
    rcases hWaits hProgress with ⟨p, hMem⟩
    rcases GameSession.mem_toAct.mp hMem with
      ⟨hSeated, hCan, hOpen⟩
    refine ⟨p, hSeated, hCan, ?_⟩
    rintro ⟨hActed, hLevel⟩
    rcases hOpen with hNew | hBehind
    · exact hNew ((run.mem_playersActed_iff hSeated).mpr hActed)
    · rw [hLevel] at hBehind
      exact UInt32.lt_irrefl _ hBehind
  · rintro e d hOk hDeal p ⟨hActed, _⟩
    rcases (Transition.since_concat _).mp hActed with
      ⟨action, hMakes⟩ | ⟨_, hNot, _⟩
    · have hDone :=
        Config.pending_of_accepts hMakes.accepts hOk
      rw [hDeal] at hDone
      cases hDone
    · exact hNot (Or.inl hDeal)
  · rintro e d q hOk hRaise p hNe ⟨hActed, _⟩
    rcases (Transition.since_concat _).mp hActed with
      ⟨action, hMakes⟩ | ⟨_, _, hNone⟩
    · exact hNe (hRaise.unique hMakes).1
    · exact hNone q hRaise

end Runs

/- Player 0 calls the blind of player 1. -/
def Event.bigBlindOption : List Event :=
  proceeds 2 ++ [act 0 .call] ++ proceeds 1

/- All bets are the same, and player 1 has still to act. -/
theorem Table.bigBlindOption_open :
    ∃ trace c,
      (numbered [1000, 1000] (by decide)).Run trace c ∧
      c.pending = .done ∧ c.session.phase = .preFlop ∧
      (∀ p ∈ c.session.players,
        c.session.roundBets.get p = c.session.currentBet) ∧
      ∃ p ∈ c.session.players,
        c.session.canPlayerAct p ∧
          ¬ c.session.Settled trace p := by
  rcases exists_run (numbered [1000, 1000] (by decide))
      Event.bigBlindOption
      (fun _ c => decide
        (c.pending = .done ∧ c.session.InProgress ∧
          c.session.phase = .preFlop ∧
          ∀ p ∈ c.session.players,
            c.session.roundBets.get p =
              c.session.currentBet))
      (by decide +kernel) with
    ⟨trace, c, run, hTest⟩
  rcases of_decide_eq_true hTest with
    ⟨hDone, hProgress, hPhase, hLevel⟩
  exact ⟨trace, c, run, hDone, hPhase, hLevel,
    run.roundCloses.2.1 hDone hProgress⟩

end Server

end Poker
