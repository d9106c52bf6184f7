import AsciiPoker.Server.GameSession.Asking
import AsciiPoker.Server.GameSession.Effort
import AsciiPoker.Server.GameSession.Progress

/-
  A hand is run out: `ask_current_player` and `next_phase`
  call each other until somebody is asked or the hand is
  settled.

  When nobody can act the round is complete, so that every
  street is left at once; when somebody can act the search
  for the next player finds him.  Either way a street sees
  one change of the seat on turn at the most.

  Main declarations:
    * `GameSession.SearchEnds`, `GameSession.OpeningEnds`
    * `GameSession.InHand`, `Config.RunsOut`
    * `GameSession.InHand.runsOut`
-/

namespace Poker

namespace Server

open Protocol

------------------------------------------------------------
-- The Loops
------------------------------------------------------------

namespace GameSession

variable {s t : GameSession}

/- Where the loop of `find_next_active_player` stops. -/
def StopsAt
    (s : GameSession)
    (index : Nat) : Prop :=
  s.canActAt index ∨ index = s.currentPlayerIndex

instance (s : GameSession) : DecidablePred s.StopsAt :=
  fun _ => inferInstanceAs (Decidable (_ ∨ _))

/-
  The loop of `find_next_active_player` passes over some of
  the other seats and then stops at the one it returns.
-/
def SearchEnds
    (s : GameSession) : Prop :=
  ∃ passed, passed < s.players.length ∧
    (∀ k, k < passed → ¬ s.StopsAt
      ((s.currentPlayerIndex + 1 + k) % s.players.length)) ∧
    s.StopsAt ((s.currentPlayerIndex + 1 + passed) %
      s.players.length) ∧
    s.findNextActivePlayer =
      (s.currentPlayerIndex + 1 + passed) % s.players.length

/-
  The loop of `first_to_act_postflop` passes over some seats
  and then stops at one that can act, or is back at the
  first one and returns the dealer.
-/
def OpeningEnds
    (s : GameSession) : Prop :=
  let first := (s.dealerIndex + 1) % s.players.length
  let seat := fun k => (first + k) % s.players.length
  ∃ passed, passed < s.players.length ∧
    (∀ k, k < passed →
      ¬ s.canActAt (seat k) ∧ seat (k + 1) ≠ first) ∧
    ((s.canActAt (seat passed) ∧
        s.firstToActPostflop = seat passed) ∨
      (¬ s.canActAt (seat passed) ∧
        seat (passed + 1) = first ∧
        s.firstToActPostflop = s.dealerIndex))

/- Going on until the first place where to stop. -/
theorem nextActiveLoop_eq_wait
    {rounds index : Nat}
    (hIndex : index < s.players.length)
    (hStops : Cyclic.wait s.players.length index s.StopsAt <
      s.players.length)
    (hRounds : Cyclic.wait s.players.length index s.StopsAt <
      rounds) :
    s.nextActiveLoop rounds index =
      (index + Cyclic.wait s.players.length index s.StopsAt) %
        s.players.length := by
  induction rounds generalizing index with
  | zero => omega
  | succ rounds ih =>
      unfold nextActiveLoop
      by_cases hHere : s.StopsAt index
      · have hZero : Cyclic.wait s.players.length index
            s.StopsAt ≤ 0 :=
          Cyclic.wait_le (by
            rw [Nat.add_zero, Nat.mod_eq_of_lt hIndex]
            exact hHere)
        rw [if_neg (by
          rintro ⟨hNot, hOther⟩
          exact hHere.elim hNot hOther), Nat.le_zero.mp hZero,
          Nat.add_zero, Nat.mod_eq_of_lt hIndex]
      · have hOn : ¬ s.canActAt index ∧
            index ≠ s.currentPlayerIndex :=
          not_or.mp hHere
        have hNot : ¬ s.StopsAt (index % s.players.length) := by
          rw [Nat.mod_eq_of_lt hIndex]
          exact hHere
        have hNext := Cyclic.wait_succ hStops hNot
        rw [if_pos hOn, ih (Nat.mod_lt _ (by omega)) (by omega)
          (by omega), Nat.mod_add_mod, ← hNext]
        have hSum : index + 1 + Cyclic.wait s.players.length
            ((index + 1) % s.players.length) s.StopsAt =
          index + (Cyclic.wait s.players.length
            ((index + 1) % s.players.length) s.StopsAt + 1) := by
          omega
        rw [hSum]

/- The search stops where one first can. -/
theorem searchEnds
    (hCurrent : s.currentPlayerIndex < s.players.length) :
    s.SearchEnds := by
  have hPos : 0 < s.players.length := Nat.zero_lt_of_lt hCurrent
  have hStart : (s.currentPlayerIndex + 1) %
      s.players.length < s.players.length :=
    Nat.mod_lt _ hPos
  have hShort : Cyclic.wait s.players.length
      ((s.currentPlayerIndex + 1) % s.players.length)
        s.StopsAt < s.players.length :=
    Cyclic.wait_lt hCurrent (Or.inr rfl)
  have hSeat : ∀ k,
      ((s.currentPlayerIndex + 1) % s.players.length + k) %
        s.players.length =
      (s.currentPlayerIndex + 1 + k) % s.players.length :=
    fun k => Nat.mod_add_mod ..
  refine ⟨_, hShort, ?_, ?_, ?_⟩
  · intro k hk
    have hNot := Cyclic.not_here_of_lt hk
    rw [hSeat] at hNot
    exact hNot
  · have hHere := Cyclic.here_of_wait_lt hShort
    rw [hSeat] at hHere
    exact hHere
  · unfold findNextActivePlayer
    rw [if_neg (List.ne_nil_of_length_pos hPos),
      nextActiveLoop_eq_wait hStart hShort hShort, hSeat]

/-
  The loop of `first_to_act_postflop` from one of its later
  seats on: somebody who can act is still ahead, or nobody
  can and the dealer is returned.
-/
theorem postflopLoop_eq
    {first rounds seen : Nat}
    (hFirst : first < s.players.length)
    (hSeen : seen < s.players.length)
    (hRounds : s.players.length ≤ seen + rounds)
    (hAhead : seen ≤
      Cyclic.wait s.players.length first s.canActAt) :
    s.postflopLoop first rounds
        ((first + seen) % s.players.length) =
      if Cyclic.wait s.players.length first s.canActAt <
          s.players.length then
        (first + Cyclic.wait s.players.length first
          s.canActAt) % s.players.length
      else
        s.dealerIndex := by
  induction rounds generalizing seen with
  | zero => omega
  | succ rounds ih =>
      unfold postflopLoop
      by_cases hHere : s.canActAt
          ((first + seen) % s.players.length)
      · have hThis : Cyclic.wait s.players.length first
            s.canActAt = seen :=
          Nat.le_antisymm (Cyclic.wait_le hHere) hAhead
        rw [if_pos hHere, hThis, if_pos hSeen]
      · have hLater : seen ≠ Cyclic.wait s.players.length first
            s.canActAt ∨ ¬ Cyclic.wait s.players.length first
              s.canActAt < s.players.length := by
          by_contra hThis
          rcases not_or.mp hThis with ⟨hSame, hLess⟩
          refine hHere ?_
          rw [not_not.mp hSame]
          exact Cyclic.here_of_wait_lt (not_not.mp hLess)
        rw [if_neg hHere]
        dsimp only
        rw [Nat.mod_add_mod, Nat.add_assoc]
        by_cases hLast : seen + 1 = s.players.length
        · rw [hLast, Nat.add_mod_right, Nat.mod_eq_of_lt hFirst,
            if_neg (not_not.mpr rfl), if_neg (by omega)]
        · have hBack := Cyclic.add_mod_ne hFirst
            (Nat.succ_pos seen) (by omega)
          rw [if_pos hBack]
          exact ih (by omega) (by omega) (by omega)

/- The first player to act is found, or nobody can act. -/
theorem openingEnds
    (hDealer : s.dealerIndex < s.players.length) :
    s.OpeningEnds := by
  have hFirst : (s.dealerIndex + 1) % s.players.length <
      s.players.length :=
    Nat.mod_lt _ (Nat.zero_lt_of_lt hDealer)
  have hRounds : s.players.length ≤ 0 + s.players.length := by
    omega
  have hLoop := postflopLoop_eq hFirst
    (Nat.zero_lt_of_lt hDealer) hRounds (Nat.zero_le _)
  rw [Nat.add_zero ((s.dealerIndex + 1) % s.players.length),
    Nat.mod_eq_of_lt hFirst] at hLoop
  unfold OpeningEnds firstToActPostflop
  dsimp only
  rw [hLoop]
  generalize (s.dealerIndex + 1) % s.players.length = first
    at hFirst
  by_cases hSome : Cyclic.wait s.players.length first
      s.canActAt < s.players.length
  · rw [if_pos hSome]
    refine ⟨_, hSome, ?_,
      Or.inl ⟨Cyclic.here_of_wait_lt hSome, rfl⟩⟩
    intro k hk
    exact ⟨Cyclic.not_here_of_lt hk,
      Cyclic.add_mod_ne hFirst (Nat.succ_pos k) (by omega)⟩
  · rw [if_neg hSome]
    have hNot : ∀ k, k < s.players.length →
        ¬ s.canActAt ((first + k) % s.players.length) :=
      fun k hk => Cyclic.not_here_of_lt (by omega)
    have hRound : s.players.length - 1 + 1 =
        s.players.length := by
      omega
    refine ⟨s.players.length - 1, by omega, ?_,
      Or.inr ⟨hNot _ (by omega), ?_, rfl⟩⟩
    · intro k hk
      exact ⟨hNot k (by omega),
        Cyclic.add_mod_ne hFirst (Nat.succ_pos k) (by omega)⟩
    · rw [hRound, Nat.add_mod_right, Nat.mod_eq_of_lt hFirst]

/-
  If the player on turn cannot act but somebody can, the
  search finds somebody who can.
-/
theorem SearchEnds.canActAt
    (hEnds : s.SearchEnds)
    (hCurrent : s.currentPlayerIndex < s.players.length)
    (hPassed : ¬ s.canActAt s.currentPlayerIndex)
    (hSome : ∃ p ∈ s.players, s.canPlayerAct p) :
    s.canActAt s.findNextActivePlayer := by
  rcases hEnds with ⟨passed, hPassing, hNone, hStops, hFound⟩
  rw [hFound]
  refine hStops.resolve_right fun hBack => ?_
  have hRound : passed + 1 = s.players.length := by
    by_contra hShort
    rw [Nat.add_assoc, Nat.add_comm 1 passed] at hBack
    exact Cyclic.add_mod_ne hCurrent (Nat.succ_pos passed)
      (by omega) hBack
  rcases hSome with ⟨p, hMem, hAct⟩
  rcases List.getElem?_of_mem hMem with ⟨i, hAt⟩
  have hIn := (List.getElem?_eq_some_iff.mp hAt).1
  have hLess : Cyclic.wait s.players.length
      (s.currentPlayerIndex + 1) s.canActAt <
        s.players.length :=
    Cyclic.wait_lt hIn ⟨p, hAt, hAct⟩
  have hThere := Cyclic.here_of_wait_lt hLess
  by_cases hEarly : Cyclic.wait s.players.length
      (s.currentPlayerIndex + 1) s.canActAt < passed
  · exact hNone _ hEarly (Or.inl hThere)
  · have hHere : Cyclic.wait s.players.length
        (s.currentPlayerIndex + 1) s.canActAt = passed := by
      omega
    rw [hHere, hBack] at hThere
    exact hPassed hThere

------------------------------------------------------------
-- Hands Before Their Showdown
------------------------------------------------------------

/- The cards of all the streets that come after a phase. -/
def cardsFrom : GamePhase → Nat
| .preFlop => 5
| .flop => 2
| .turn => 1
| .river => 0
| .showdown => 0

/-
  A hand before its showdown: somebody is still in it, the
  deck lasts for the streets to come, and what a betting
  round looks up is there.
-/
structure InHand
    (s : GameSession) : Prop where
  phase : s.phase ≠ .showdown
  standing : ∃ p ∈ s.players, p ∉ s.foldedPlayers
  cards : cardsFrom s.phase ≤ s.deck.length
  laid : s.Laid

theorem InHand.advance
    (hHand : s.InHand) :
    s.advanceToNextPlayer.InHand :=
  ⟨hHand.phase, hHand.standing, hHand.cards,
    hHand.laid.advance⟩

/- Somebody is left whom a single count would find. -/
theorem InHand.two_le
    (hHand : s.InHand)
    (hMany : s.countActivePlayers ≠ 1) :
    2 ≤ s.countActivePlayers := by
  rcases hHand.standing with ⟨p, hMem, hIn⟩
  have hPos : 0 < s.countActivePlayers :=
    List.countP_pos_iff.mpr ⟨p, hMem, by simpa using hIn⟩
  omega

/- The next street of a hand belongs to the hand as well. -/
theorem InHand.street
    {count : Nat}
    {phase : GamePhase}
    {dealt rest : List Card}
    (hHand : s.InHand)
    (hPhase : (s.phase, count, phase) ∈
      [(.preFlop, 3, .flop), (.flop, 1, .turn),
        (.turn, 1, .river)])
    (hDeal : Deck.deal s.deck count = some (dealt, rest))
    (hQuiet :
      (s.clearBets.openStreet dealt rest phase).Quiet t) :
    t.InHand ∧
      streetsFrom t.phase + 1 = streetsFrom s.phase := by
  rcases Deck.deal_eq_some hDeal with ⟨hDeck, hCount⟩
  have hCards := hHand.cards
  rw [hDeck, List.length_append, List.length_reverse, hCount]
    at hCards
  rcases hQuiet with ⟨_, _, rfl, _⟩
  rcases hHand.laid.street dealt rest phase with
    ⟨hChips, hBets, hD, hC⟩
  have hNext : phase ≠ .showdown ∧
      cardsFrom phase ≤ rest.length ∧
      streetsFrom phase + 1 = streetsFrom s.phase := by
    simp only [List.mem_cons, Prod.mk.injEq,
      List.not_mem_nil, or_false] at hPhase
    rcases hPhase with
      ⟨hWas, rfl, rfl⟩ | ⟨hWas, rfl, rfl⟩ | ⟨hWas, rfl, rfl⟩
    all_goals
      rw [hWas] at hCards ⊢
      simp only [cardsFrom] at hCards
      refine ⟨by simp, ?_, rfl⟩
      simp only [cardsFrom]
      omega
  exact ⟨⟨hNext.1, hHand.standing, hNext.2.1,
    ⟨hChips, hBets, hD, hC⟩⟩, hNext.2.2⟩

/- When nobody can act there is nothing to wait for. -/
theorem Laid.complete_of_nobody
    (hLaid : s.Laid)
    (hNobody : ∀ p ∈ s.players, ¬ s.canPlayerAct p) :
    s.isRoundComplete = .ok true := by
  rw [isRoundComplete_iff]
  refine Or.inr fun p hMem => ?_
  have hOut := hNobody p hMem
  by_cases hFolded : p ∈ s.foldedPlayers
  · exact Or.inl hFolded
  · have hAllIn : p ∈ s.allInPlayers := by
      by_contra hNot
      exact hOut ⟨hFolded, hNot⟩
    rcases Option.isSome_iff_exists.mp
        (hLaid.roundBets p hMem) with
      ⟨bet, hBet⟩
    exact Or.inr ⟨bet, hBet, fun h => h.2 hAllIn,
      fun h => hOut h.1⟩

/- A round that goes on goes on with somebody who can act. -/
theorem InHand.canActAt_of_open
    (hHand : s.InHand)
    (hPassed : ¬ s.canActAt s.currentPlayerIndex)
    (hOpen : s.advanceToNextPlayer.isRoundComplete =
      .ok false) :
    s.canActAt s.findNextActivePlayer := by
  apply (searchEnds hHand.laid.current).canActAt
    hHand.laid.current hPassed
  by_contra hNone
  have hNobody : ∀ p ∈ s.players, ¬ s.canPlayerAct p :=
    fun p hMem hAct => hNone ⟨p, hMem, hAct⟩
  have hComplete : s.advanceToNextPlayer.isRoundComplete =
      .ok true :=
    hHand.laid.advance.complete_of_nobody hNobody
  rw [hComplete] at hOpen
  cases hOpen

end GameSession

------------------------------------------------------------
-- The Recursion
------------------------------------------------------------

namespace Config

/- A call of one of the two functions is left to run. -/
def Recurses
    (c : Config) : Prop :=
  c.pending = .askCurrentPlayer ∨ c.pending = .nextPhase

/- What a step runs, on which street and at which seat. -/
def visit
    (x : Config × Event) : Pending × GamePhase × Nat :=
  (x.1.pending, x.1.session.phase,
    x.1.session.currentPlayerIndex)

/- The calls of `next_phase`. -/
def nextPhases
    (trace : List (Config × Event)) : List (Config × Event) :=
  trace.filter fun x => x.1.pending = .nextPhase

/-
  The calls of `ask_current_player` on a street that find a
  player who cannot act and change the seat on turn.
-/
def seatChanges
    (trace : List (Config × Event))
    (phase : GamePhase) : List (Config × Event) :=
  trace.filter fun x =>
    x.1.pending = .askCurrentPlayer ∧
      x.1.session.phase = phase ∧
      ¬ x.1.session.canActAt x.1.session.currentPlayerIndex

/-
  Somebody who can act has just been asked, or the hand is
  settled: one player is left in it, or it is shown down.
-/
inductive Decides : Config → Prop
  | asked
      {t : GameSession}
      {p : PlayerId}
      (hAt : t.players[t.currentPlayerIndex]? = some p)
      (hAct : t.canPlayerAct p) :
      Decides ⟨t.send p (.yourTurn (t.yourTurn p)), .done⟩
  | oneLeft
      {t : GameSession}
      (hOne : t.countActivePlayers = 1) :
      Decides ⟨t, .handleSingleWinner⟩
  | shownDown
      {t : GameSession}
      (hRiver : t.phase = .river)
      (hMany : 2 ≤ t.countActivePlayers) :
      Decides ⟨t, .doShowdown⟩

/-
  The recursion from `c` takes the steps of `trace` and ends
  at `d`.  It goes through the remaining streets at the most,
  changes the seat on turn once on a street at the most, and
  calls no function twice on the same street and seat.
-/
structure RunsOut
    (c : Config)
    (shuffle : Shuffle)
    (trace : List (Config × Event))
    (d : Config) : Prop where
  run : Transition.Run Config.step c trace d
  recurses : ∀ x ∈ trace,
    x.1.Recurses ∧ x.2 = .proceed shuffle
  loops : ∀ x ∈ trace,
    x.1.session.SearchEnds ∧ x.1.session.OpeningEnds
  decides : d.Decides
  streets : (nextPhases trace).length + d.streetsLeft ≤
    streetsFrom c.session.phase
  seats : ∀ phase, (seatChanges trace phase).length ≤ 1
  visits : (trace.map visit).Nodup
  onward : ∀ x ∈ trace, streetsFrom x.1.session.phase ≤
    streetsFrom c.session.phase

section Counting

variable {s : GameSession}
variable {e : Event}
variable {trace : List (Config × Event)}

@[simp] theorem nextPhases_askCurrentPlayer :
    nextPhases ((⟨s, .askCurrentPlayer⟩, e) :: trace) =
      nextPhases trace := by
  simp [nextPhases]

@[simp] theorem nextPhases_nextPhase :
    nextPhases ((⟨s, .nextPhase⟩, e) :: trace) =
      (⟨s, .nextPhase⟩, e) :: nextPhases trace := by
  simp [nextPhases]

@[simp] theorem seatChanges_nextPhase
    (phase : GamePhase) :
    seatChanges ((⟨s, .nextPhase⟩, e) :: trace) phase =
      seatChanges trace phase := by
  simp [seatChanges]

/- One more change is the first one on its street. -/
theorem length_seatChanges_cons_le
    {x : Config × Event}
    (hRest : ∀ phase, (seatChanges trace phase).length ≤ 1)
    (hFirst : seatChanges trace x.1.session.phase = [])
    (phase : GamePhase) :
    (seatChanges (x :: trace) phase).length ≤ 1 := by
  have hCons : (seatChanges (x :: trace) phase).length ≤
      (seatChanges trace phase).length + 1 := by
    unfold seatChanges
    rw [List.filter_cons]
    split
    · exact Nat.le_refl _
    · exact Nat.le_succ _
  by_cases hHere : x.1.session.phase = phase
  · rw [← hHere, hFirst, hHere] at hCons
    exact hCons
  · have hSkip : seatChanges (x :: trace) phase =
        seatChanges trace phase := by
      simp [seatChanges, hHere]
    rw [hSkip]
    exact hRest phase

end Counting

end Config

namespace GameSession

variable {s t : GameSession}
variable {shuffle : Shuffle}
variable {pending : Pending}
variable {trace : List (Config × Event)}
variable {d : Config}

open Config

/- Both functions go through in a hand. -/
theorem InHand.exists_step
    (hHand : s.InHand)
    (hRecurses : Config.Recurses ⟨s, pending⟩)
    (shuffle : Shuffle) :
    ∃ d, Config.step ⟨s, pending⟩ (.proceed shuffle) =
      .ok d := by
  have hStreet : nextStreet s.phase ≤ cardsFrom s.phase := by
    cases s.phase with
    | preFlop => decide
    | flop => decide
    | turn => decide
    | river => decide
    | showdown => decide
  have hBody : (s.body shuffle pending).FailsOnly
      fun _ => False := by
    rcases hRecurses with rfl | rfl
    · exact hHand.laid.askCurrentPlayer_failsOnly
    · exact hHand.laid.nextPhase_failsOnly (Or.inr (Or.inl
        (Nat.le_trans hStreet hHand.cards)))
  exact (Config.ofResult_failsOnly hBody).exists_ok

/- The loops of a table whose indices are seats. -/
theorem Laid.loops
    (hLaid : s.Laid) :
    s.SearchEnds ∧ s.OpeningEnds :=
  ⟨searchEnds hLaid.current, openingEnds hLaid.dealer⟩

/- A recursion of one step. -/
theorem InHand.runsOut_once
    (hHand : s.InHand)
    (hRecurses : Config.Recurses ⟨s, pending⟩)
    (hStep : Config.step ⟨s, pending⟩ (.proceed shuffle) =
      .ok d)
    (hDecides : d.Decides)
    (hStreets : (nextPhases
      [(⟨s, pending⟩, .proceed shuffle)]).length +
        d.streetsLeft ≤ streetsFrom s.phase) :
    RunsOut ⟨s, pending⟩ shuffle
      [(⟨s, pending⟩, .proceed shuffle)] d where
  run := Transition.Run.cons hStep Transition.Run.nil
  recurses := List.forall_mem_singleton.mpr ⟨hRecurses, rfl⟩
  loops := List.forall_mem_singleton.mpr hHand.laid.loops
  decides := hDecides
  streets := hStreets
  seats := fun _ => List.length_filter_le ..
  visits := List.nodup_singleton _
  onward := List.forall_mem_singleton.mpr (Nat.le_refl _)

/- A step before a recursion that does not repeat it. -/
theorem InHand.runsOut_cons
    {c : Config}
    (hHand : s.InHand)
    (hRecurses : Config.Recurses ⟨s, pending⟩)
    (hStep : Config.step ⟨s, pending⟩ (.proceed shuffle) =
      .ok c)
    (hRest : RunsOut c shuffle trace d)
    (hOnward : streetsFrom c.session.phase ≤
      streetsFrom s.phase)
    (hStreets : (nextPhases
      ((⟨s, pending⟩, .proceed shuffle) :: trace)).length +
        d.streetsLeft ≤ streetsFrom s.phase)
    (hSeats : ∀ phase, (seatChanges
      ((⟨s, pending⟩, .proceed shuffle) :: trace)
        phase).length ≤ 1)
    (hNew : ∀ x ∈ trace, visit x ≠
      (pending, s.phase, s.currentPlayerIndex)) :
    RunsOut ⟨s, pending⟩ shuffle
      ((⟨s, pending⟩, .proceed shuffle) :: trace) d where
  run := Transition.Run.cons hStep hRest.run
  recurses := List.forall_mem_cons.mpr
    ⟨⟨hRecurses, rfl⟩, hRest.recurses⟩
  loops := List.forall_mem_cons.mpr
    ⟨hHand.laid.loops, hRest.loops⟩
  decides := hRest.decides
  streets := hStreets
  seats := hSeats
  visits := by
    rw [List.map_cons, List.nodup_cons]
    refine ⟨?_, hRest.visits⟩
    intro hMem
    rcases List.mem_map.mp hMem with ⟨x, hx, hSame⟩
    exact hNew x hx hSame
  onward := List.forall_mem_cons.mpr ⟨Nat.le_refl _,
    fun x hx => Nat.le_trans (hRest.onward x hx) hOnward⟩

/- Whoever is on turn and can act is asked. -/
theorem InHand.runsOut_asked
    (hHand : s.InHand)
    (hAct : s.canActAt s.currentPlayerIndex)
    (shuffle : Shuffle) :
    ∃ d, RunsOut ⟨s, .askCurrentPlayer⟩ shuffle
      [(⟨s, .askCurrentPlayer⟩, .proceed shuffle)] d ∧
        d.streetsLeft = streetsFrom s.phase := by
  rcases hHand.exists_step (Or.inl rfl) shuffle with ⟨d, hOk⟩
  cases step_of_ok hOk with
  | asked hAt hCan =>
      refine ⟨_, hHand.runsOut_once (Or.inl rfl) hOk
        (Decides.asked hAt hCan) ?_, rfl⟩
      simp [nextPhases, Config.streetsLeft, send]
  | passedOver hAt hCannot hCloses =>
      rcases hAct with ⟨p, hSeat, hCan⟩
      rw [hAt] at hSeat
      cases hSeat
      exact absurd hCan hCannot

/-
  From the question on: who is on turn is asked, or the turn
  goes to somebody who is, or the street is left.
-/
theorem InHand.runsOut_ask
    (hHand : s.InHand)
    (shuffle : Shuffle)
    (hNext : ∀ t : GameSession, t.InHand → t.phase = s.phase →
      ∃ trace d, RunsOut ⟨t, .nextPhase⟩ shuffle trace d ∧
        ∀ x ∈ trace, x.1.pending = .askCurrentPlayer →
          streetsFrom x.1.session.phase < streetsFrom t.phase) :
    ∃ trace d, RunsOut ⟨s, .askCurrentPlayer⟩ shuffle
      trace d := by
  by_cases hHere : s.canActAt s.currentPlayerIndex
  · rcases hHand.runsOut_asked hHere shuffle with ⟨d, hRun, _⟩
    exact ⟨_, d, hRun⟩
  rcases hHand.exists_step (Or.inl rfl) shuffle with ⟨d, hOk⟩
  cases step_of_ok hOk with
  | asked hAt hAct => exact absurd ⟨_, hAt, hAct⟩ hHere
  | @passedOver _ p pending _ hAt hAct hCloses =>
      rcases hCloses with ⟨_, rfl⟩ | ⟨hOpen, rfl⟩
      · rcases hNext s.advanceToNextPlayer hHand.advance rfl
          with ⟨trace, d, hRest, hLater⟩
        have hNew : ∀ x ∈ trace,
            x.1.pending = .askCurrentPlayer →
              x.1.session.phase ≠ s.phase := by
          intro x hx hAsk hSame
          have hLess := hLater x hx hAsk
          rw [hSame] at hLess
          exact Nat.lt_irrefl _ hLess
        refine ⟨_, d, hHand.runsOut_cons (Or.inl rfl) hOk hRest
          (Nat.le_refl _) ?_ ?_ ?_⟩
        · rw [nextPhases_askCurrentPlayer]
          exact hRest.streets
        · apply length_seatChanges_cons_le hRest.seats
          rw [seatChanges, List.filter_eq_nil_iff]
          intro x hx hChange
          have hParts := of_decide_eq_true hChange
          exact hNew x hx hParts.1 hParts.2.1
        · intro x hx hSame
          exact hNew x hx (congrArg (·.1) hSame)
            (congrArg (·.2.1) hSame)
      · have hThere := hHand.canActAt_of_open hHere hOpen
        rcases hHand.advance.runsOut_asked hThere shuffle with
          ⟨d, hRest, hLeft⟩
        refine ⟨_, d, hHand.runsOut_cons (Or.inl rfl) hOk hRest
          (Nat.le_refl _) ?_ ?_ ?_⟩
        · rw [nextPhases_askCurrentPlayer]
          exact hRest.streets
        · apply length_seatChanges_cons_le hRest.seats
          rw [seatChanges, List.filter_eq_nil_iff]
          intro x hx hChange
          have hParts := of_decide_eq_true hChange
          rw [List.mem_singleton.mp hx] at hParts
          exact hParts.2.2 hThere
        · intro x hx hSame
          rw [List.mem_singleton.mp hx] at hSame
          have hSeat : s.findNextActivePlayer =
              s.currentPlayerIndex :=
            congrArg (·.2.2) hSame
          rw [hSeat] at hThere
          exact hHere hThere

/- The settlement of a hand, or its next street. -/
theorem InHand.runsOut_nextPhase
    (hHand : s.InHand)
    (shuffle : Shuffle) :
    ∃ trace d, RunsOut ⟨s, .nextPhase⟩ shuffle trace d ∧
      ∀ x ∈ trace, x.1.pending = .askCurrentPlayer →
        streetsFrom x.1.session.phase <
          streetsFrom s.phase := by
  induction hLeft : streetsFrom s.phase using
      Nat.strong_induction_on generalizing s with
  | h left ih =>
      subst hLeft
      have hSome : 1 ≤ streetsFrom s.phase := by
        have hPhase := hHand.phase
        cases hIs : s.phase with
        | showdown => exact absurd hIs hPhase
        | _ => simp [streetsFrom]
      rcases hHand.exists_step (Or.inr rfl) shuffle with
        ⟨d, hOk⟩
      cases step_of_ok hOk with
      | wonByFold hOne =>
          refine ⟨_, _, hHand.runsOut_once (Or.inr rfl) hOk
            (Decides.oneLeft hOne) ?_, by simp⟩
          simpa [nextPhases, Config.streetsLeft] using hSome
      | riverClosed hMany hPhase =>
          refine ⟨_, _, hHand.runsOut_once (Or.inr rfl) hOk
            (Decides.shownDown hPhase (hHand.two_le hMany)) ?_,
              by simp⟩
          simpa [nextPhases, Config.streetsLeft] using hSome
      | pastShowdown hMany hPhase =>
          exact absurd hPhase hHand.phase
      | @street _ t count phase dealt rest _ hMany hPhase hDeal
          hQuiet =>
          rcases hHand.street hPhase hDeal hQuiet with
            ⟨hTable, hOnward⟩
          rcases hTable.runsOut_ask shuffle (by
              intro u hOther hSame
              exact ih _ (by rw [hSame]; omega) hOther rfl) with
            ⟨trace, d, hRest⟩
          have hLater : ∀ x ∈ trace,
              streetsFrom x.1.session.phase <
                streetsFrom s.phase := by
            intro x hx
            have hLe := hRest.onward x hx
            dsimp only at hLe
            omega
          refine ⟨_, d, hHand.runsOut_cons (Or.inr rfl) hOk hRest
            ?_ ?_ ?_ ?_, ?_⟩
          · dsimp only
            omega
          · have hStreets := hRest.streets
            rw [nextPhases_nextPhase, List.length_cons]
            dsimp only at hStreets
            omega
          · intro phase
            rw [seatChanges_nextPhase]
            exact hRest.seats phase
          · intro x hx hSame
            have hLess := hLater x hx
            have hPhase : x.1.session.phase = s.phase :=
              congrArg (·.2.1) hSame
            rw [hPhase] at hLess
            exact Nat.lt_irrefl _ hLess
          · refine List.forall_mem_cons.mpr ⟨by simp, ?_⟩
            exact fun x hx _ => hLater x hx

/-
  In every hand before its showdown the two functions come
  to an end, whichever of them is called.
-/
theorem InHand.runsOut
    (hHand : s.InHand)
    (hRecurses : Config.Recurses ⟨s, pending⟩)
    (shuffle : Shuffle) :
    ∃ trace d, RunsOut ⟨s, pending⟩ shuffle trace d := by
  rcases hRecurses with rfl | rfl
  · exact hHand.runsOut_ask shuffle
      fun t hTable _ => hTable.runsOut_nextPhase shuffle
  · rcases hHand.runsOut_nextPhase shuffle with
      ⟨trace, d, hRun, _⟩
    exact ⟨trace, d, hRun⟩

end GameSession

/- Both players go all-in before the flop. -/
def Event.allInPreFlop : List Event :=
  proceeds 2 ++ [raiseTo 0 1000] ++ proceeds 1 ++
    [act 1 .call]

/- Nobody can act any more, and the board is still to come. -/
theorem Table.allInPreFlop_runsOut :
    ∃ trace c,
      (numbered [1000, 1000] (by decide)).Run trace c ∧
      c.pending = .nextPhase ∧
      c.session.phase = .preFlop ∧
      (∀ p ∈ c.session.players,
        ¬ c.session.canPlayerAct p) ∧
      ∃ later d, c.RunsOut .unshuffled later d := by
  rcases exists_run (numbered [1000, 1000] (by decide))
      Event.allInPreFlop
      (fun _ c => decide
        (c.pending = .nextPhase ∧
          c.session.phase = .preFlop ∧
          (∀ p ∈ c.session.players,
            ¬ c.session.canPlayerAct p) ∧
          (∃ p ∈ c.session.players,
            p ∉ c.session.foldedPlayers) ∧
          5 ≤ c.session.deck.length ∧
          (∀ p ∈ c.session.players,
            (c.session.chips.find p).isSome) ∧
          (∀ p ∈ c.session.players,
            (c.session.roundBets.find p).isSome) ∧
          c.session.dealerIndex < c.session.players.length ∧
          c.session.currentPlayerIndex <
            c.session.players.length))
      (by decide +kernel) with
    ⟨trace, ⟨s, pending⟩, run, hTest⟩
  rcases of_decide_eq_true hTest with
    ⟨hNext, hPhase, hNobody, hIn, hCards, hChips, hBets, hD,
      hC⟩
  refine ⟨trace, _, run, hNext, hPhase, hNobody, ?_⟩
  dsimp only at hPhase hCards
  have hHand : s.InHand :=
    ⟨by simp [hPhase], hIn,
      by rw [hPhase]; exact hCards,
      ⟨hChips, hBets, hD, hC⟩⟩
  exact hHand.runsOut (Or.inr hNext) .unshuffled

end Server

end Poker
