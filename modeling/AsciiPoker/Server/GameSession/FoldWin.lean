import AsciiPoker.Server.GameSession.HiddenCards
import AsciiPoker.Server.GameSession.Prizes
import AsciiPoker.Server.GameSession.TableStakes

/-
  What the result of a hand without a showdown tells.

  A sole winner is named with what he is paid and with a
  label of his hand, which is empty before the flop and made
  from his own cards after it.

  Main declarations:
    * `GameSession.results`
    * `GameSession.results_of_sole`
    * `GameSession.SameTable.soleResult_iff`
-/

namespace Poker

namespace Server

open Protocol

------------------------------------------------------------
-- Results of Hands
------------------------------------------------------------

/- The result of a hand that a message tells. -/
def resultOf : ServerMessage → Option HandResult
| .handResult result => some result
| _ => none

namespace GameSession

variable {s t : GameSession}
variable {p w : PlayerId}
variable {i : Nat}
variable {pot : SidePot}
variable {pots : List SidePot}
variable {award paid : Award}

/- The results of hands sent to a player, oldest first. -/
def results
    (s : GameSession)
    (p : PlayerId) : List HandResult :=
  Mailbox.picked resultOf p s.letters

/- Everybody is sent the result that is announced. -/
theorem results_of_announced
    (hNodup : award.session.players.Nodup)
    (hSeated : p ∈ award.session.players)
    (hOk : announceAward award = .ok t) :
    t.results p = award.session.results p ++
      if award.winnerNames = [] then
        []
      else
        [⟨award.winnerNames, award.totalAwarded,
          award.winnerHandLabels⟩] := by
  rcases Config.announced_of_ok hOk with
    ⟨hNil, rfl⟩ | ⟨hSome, hPlayers, _, saved, update, hSaves,
      hLog⟩
  · rw [if_pos hNil, List.append_nil]
  · have hTold : Mailbox.picked resultOf p
        (Mailbox.toAll t.players fun q =>
          .gameStateUpdate (update q)) = [] :=
      Mailbox.picked_toAll_of_none fun _ => rfl
    have hResult : Mailbox.picked resultOf p
        (Mailbox.toAll t.players fun _ => .handResult
          ⟨award.winnerNames, award.totalAwarded,
            award.winnerHandLabels⟩) =
        [⟨award.winnerNames, award.totalAwarded,
          award.winnerHandLabels⟩] := by
      rw [hPlayers]
      exact Mailbox.picked_toAll_of_mem hNodup hSeated rfl
    have hLetters : t.letters = award.session.letters ++
        (Mailbox.toAll t.players
            (fun q => .gameStateUpdate (update q)) ++
          Mailbox.toAll t.players fun _ => .handResult
            ⟨award.winnerNames, award.totalAwarded,
              award.winnerHandLabels⟩) := by
      unfold letters
      rw [hLog, List.filterMap_append, List.filterMap_append,
        hSaves.letters_eq, List.filterMap_append,
        letters_sendsTo, letters_sendsTo]
      rfl
    unfold results
    rw [if_neg hSome, hLetters, Mailbox.picked_append,
      Mailbox.picked_append, hTold, hResult]
    rfl

------------------------------------------------------------
-- A Sole Winner
------------------------------------------------------------

/- Every category has a label of its own. -/
theorem handCategoryLabel_injective :
    Function.Injective handCategoryLabel := by
  intro a b hLabel
  cases a <;> cases b <;>
    first
    | rfl
    | exact absurd hLabel (by decide)

/- The label of a winner's hand, as a value. -/
theorem winnerHandLabel_eq_ok
    {label : String}
    (hOk : s.winnerHandLabel w = .ok label) :
    label =
      if 3 ≤ s.communityCards.length then
        s.handLabel w
      else
        "" := by
  unfold winnerHandLabel at hOk
  split at hOk
  next hBoard =>
    rw [if_pos hBoard]
    unfold showdownValue at hOk
    rcases Except.bind_eq_ok.mp hOk with ⟨value, hValue, hEnd⟩
    rcases Except.bind_eq_ok.mp hValue with
      ⟨hand, hHand, hBest⟩
    cases hEnd
    cases hBest
    rw [require_eq_ok] at hHand
    unfold handLabel strength KeyMap.get
    rw [hHand]
    rfl
  next hBoard =>
    rw [if_neg hBoard]
    cases hOk
    rfl

/- Only one player has been paid so far, if anybody has. -/
structure SoleAward
    (s : GameSession)
    (w : PlayerId)
    (award : Award) : Prop where
  frame : ∃ chips, award.session = { s with chips := chips }
  named :
    (award.winnerNames = [] ∧ award.winnerHandLabels = []) ∨
      ∃ label,
        s.winnerHandLabel w = .ok label ∧
          award.winnerNames = [s.names w] ∧
          award.winnerHandLabels = [label]

theorem SoleAward.payWinner
    {share : UInt32}
    (hSole : s.SoleAward w award)
    (hOk : payWinner share award w = .ok paid) :
    s.SoleAward w paid ∧
      paid.winnerNames = [s.names w] ∧
      paid.totalAwarded = award.totalAwarded := by
  rcases hSole with ⟨⟨chips, hFrame⟩, hNamed⟩
  have hName : (award.session.credit w share).names w =
      s.names w := by
    rw [hFrame]
    rfl
  have hPaid : ∃ chips, award.session.credit w share =
      { s with chips := chips } := by
    rw [hFrame]
    exact ⟨_, rfl⟩
  have hLabel : (award.session.credit w share).winnerHandLabel
      w = s.winnerHandLabel w := by
    rw [hFrame]
    rfl
  unfold GameSession.payWinner at hOk
  dsimp only at hOk
  rw [hName, hLabel] at hOk
  rcases hNamed with ⟨hNames, hLabels⟩ |
    ⟨label, hLabel, hNames, hLabels⟩
  · rw [hNames, if_neg (by simp)] at hOk
    rcases Except.bind_eq_ok.mp hOk with ⟨label, hFound, hEnd⟩
    cases hEnd
    refine ⟨⟨hPaid, Or.inr ⟨label, hFound, rfl, ?_⟩⟩, rfl, rfl⟩
    dsimp only
    rw [hLabels]
    rfl
  · rw [hNames, if_pos (by simp)] at hOk
    cases hOk
    exact ⟨⟨hPaid, Or.inr ⟨label, hLabel, rfl, hLabels⟩⟩,
      rfl, rfl⟩

/- A pot that only he can win is his. -/
theorem SoleAward.payPot
    (hSole : s.SoleAward w award)
    (hAt : s.players[i]? = some w)
    (hAlone : pot.eligiblePlayerIndices = [i])
    (hOk : payPot award pot = .ok paid) :
    s.SoleAward w paid ∧
      paid.totalAwarded = award.totalAwarded + pot.amount ∧
      (paid.winnerNames = [] ↔
        award.winnerNames = [] ∧ pot.amount = 0) := by
  have hSeat : [i].mapM award.session.playerAt = .ok [w] := by
    rcases hSole.frame with ⟨chips, hFrame⟩
    have hFound : award.session.playerAt i = .ok w := by
      rw [hFrame]
      exact playerAt_eq_ok.mpr hAt
    rw [List.mapM_cons, hFound]
    rfl
  have hWinner : award.session.findWinnersAmong [w] =
      .ok [w] := rfl
  unfold GameSession.payPot at hOk
  rw [hAlone, hSeat, Except.ok_bind, hWinner,
    Except.ok_bind] at hOk
  dsimp only at hOk
  split at hOk
  next hZero =>
    cases hOk
    refine ⟨hSole, ?_, ?_⟩
    · rw [hZero, UInt32.add_zero]
    · exact (and_iff_left hZero).symm
  next hSome =>
    rcases Except.bind_eq_ok.mp hOk with ⟨each, hEach, hEnd⟩
    rw [List.foldlM_cons] at hEach
    rcases Except.bind_eq_ok.mp hEach with ⟨next, hNext, hSame⟩
    cases hSame
    rcases hSole.payWinner hNext with ⟨hPaid, hNames, hTotal⟩
    cases hEnd
    refine ⟨⟨?_, hPaid.named⟩, ?_, ?_⟩
    · rcases hPaid.frame with ⟨chips, hFrame⟩
      dsimp only
      rw [hFrame]
      split
      · exact ⟨_, rfl⟩
      · exact ⟨_, rfl⟩
    · dsimp only
      rw [hTotal]
    · dsimp only
      rw [hNames]
      simp [hSome]

/- The chips in some side pots, in words. -/
def chipsIn
    (pots : List SidePot) : UInt32 :=
  pots.foldl (fun total pot => total + pot.amount) 0

/- Pots that only he can win are all his. -/
theorem SoleAward.payPots
    (hSole : s.SoleAward w award)
    (hAt : s.players[i]? = some w)
    (hAlone : ∀ pot ∈ pots, pot.eligiblePlayerIndices = [i])
    (hOk : pots.foldlM GameSession.payPot award = .ok paid) :
    s.SoleAward w paid ∧
      paid.totalAwarded =
        pots.foldl (fun total pot => total + pot.amount)
          award.totalAwarded ∧
      (paid.winnerNames = [] ↔
        award.winnerNames = [] ∧
          ∀ pot ∈ pots, pot.amount = 0) := by
  induction pots generalizing award with
  | nil =>
      cases hOk
      exact ⟨hSole, rfl, by simp⟩
  | cons pot pots ih =>
      rw [List.foldlM_cons, Except.bind_eq_ok] at hOk
      rcases hOk with ⟨next, hHead, hTail⟩
      rcases List.forall_mem_cons.mp hAlone with ⟨hHere, hRest⟩
      rcases hSole.payPot hAt hHere hHead with
        ⟨hNext, hTotal, hNames⟩
      rcases ih hNext hRest hTail with
        ⟨hLast, hSum, hNobody⟩
      refine ⟨hLast, ?_, ?_⟩
      · rw [hSum, hTotal]
        rfl
      · rw [hNobody, hNames, List.forall_mem_cons, and_assoc]

/- With one active player every pot is for him alone. -/
theorem eligible_of_sole
    (hOne : s.countActivePlayers = 1)
    (hSeated : w ∈ s.players)
    (hIn : w ∉ s.foldedPlayers) :
    ∃ i, s.players[i]? = some w ∧
      ∀ pot ∈ computeSidePots s.potPlayerStates,
        pot.eligiblePlayerIndices = [i] := by
  rcases List.getElem?_of_mem hSeated with ⟨i, hAt⟩
  have hMem : i ∈ SidePots.unfolded s.potPlayerStates :=
    mem_unfolded.mpr ⟨w, hAt, hIn⟩
  have hUnfolded : SidePots.unfolded s.potPlayerStates =
      [i] := by
    have hLength := s.length_unfolded
    rw [hOne] at hLength
    rcases List.length_eq_one_iff.mp hLength with ⟨j, hOnly⟩
    rw [hOnly, List.mem_singleton] at hMem
    rw [hOnly, hMem]
  refine ⟨i, hAt, ?_⟩
  intro pot hPot
  rcases SidePots.eligible_loop_sublist hPot with ⟨hSub, hSome⟩
  rw [hUnfolded] at hSub
  rcases List.sublist_singleton.mp hSub with hNil | hAlone
  · exact absurd hNil hSome
  · exact hAlone

/-
  A sole winner is announced with his name, what is in the
  pots and the label of his hand, if there is anything.
-/
theorem results_of_sole
    (hNodup : s.players.Nodup)
    (hOne : s.countActivePlayers = 1)
    (hWinner : w ∈ s.players)
    (hIn : w ∉ s.foldedPlayers)
    (hSeated : p ∈ s.players)
    (hOk : s.awardAllPots = .ok t) :
    ((s.pot = 0 ∨ s.sidePotTotal = 0) ∧
        t.results p = s.results p) ∨
      (¬ (s.pot = 0 ∨ s.sidePotTotal = 0) ∧
        ∃ label, s.winnerHandLabel w = .ok label ∧
          t.results p = s.results p ++
            [⟨[s.names w],
              chipsIn (computeSidePots s.potPlayerStates),
              [label]⟩]) := by
  rcases eligible_of_sole hOne hWinner hIn with
    ⟨i, hAt, hAlone⟩
  unfold awardAllPots at hOk
  split at hOk
  next hEmpty =>
    cases hOk
    exact Or.inl ⟨Or.inl hEmpty, rfl⟩
  next hFull =>
    rcases Except.bind_eq_ok.mp hOk with ⟨award, hPaid, hRest⟩
    rcases Except.bind_eq_ok.mp hRest with ⟨u, hTold, hEnd⟩
    cases hEnd
    have hStart : s.SoleAward w { session := s } :=
      ⟨⟨s.chips, rfl⟩, Or.inl ⟨rfl, rfl⟩⟩
    rcases hStart.payPots hAt hAlone hPaid with
      ⟨hSole, hTotal, hNobody⟩
    have hSame : award.session.players = s.players ∧
        award.session.results p = s.results p := by
      rcases hSole.frame with ⟨chips, hFrame⟩
      rw [hFrame]
      exact ⟨rfl, rfl⟩
    have hResults := results_of_announced
      (hSame.1 ▸ hNodup) (hSame.1 ▸ hSeated) hTold
    have hNothing : award.winnerNames = [] ↔
        s.sidePotTotal = 0 := by
      rw [hNobody]
      unfold sidePotTotal
      rw [List.sum_eq_zero_iff]
      simp only [List.mem_map, true_and,
        forall_exists_index, and_imp,
        forall_apply_eq_imp_iff₂, UInt32.toNat_eq_zero_iff]
    rw [hSame.2] at hResults
    rcases hSole.named with ⟨hNames, _⟩ |
      ⟨label, hLabel, hNames, hLabels⟩
    · rw [if_pos hNames, List.append_nil] at hResults
      exact Or.inl ⟨Or.inr (hNothing.mp hNames), hResults⟩
    · rw [hNames, hLabels, hTotal, if_neg (by simp)]
        at hResults
      refine Or.inr ⟨?_, label, hLabel, hResults⟩
      rintro (hEmpty | hZero)
      · exact hFull hEmpty
      · have hNil := hNothing.mpr hZero
        rw [hNames] at hNil
        cases hNil

end GameSession

------------------------------------------------------------
-- Two Runs
------------------------------------------------------------

/- A step of a hand before its pot is awarded or it is shown. -/
def Config.Undecided
    (c : Config) : Prop :=
  c.Playing ∧ c.pending ≠ .doShowdown

instance (c : Config) : Decidable c.Undecided :=
  inferInstanceAs (Decidable (_ ∧ _))

theorem Config.Undecided.not_endsHand
    {c : Config}
    (hOpen : c.Undecided) :
    ¬ c.EndsHand := by
  rintro (hShow | hStart)
  · exact hOpen.2 hShow
  · exact hOpen.1.1 hStart

/- The award of a configuration, if it is about to run one. -/
theorem Config.awarded_of_ok
    {c d : Config}
    {e : Event}
    (hAward : c.pending.isAward = true)
    (hOk : c.step e = .ok d) :
    c.session.awardAllPots = .ok d.session := by
  rcases c with ⟨s, pending⟩
  cases pending with
  | awardAllPots next =>
      cases e with
      | proceed shuffle =>
          simp only [step, ofResult_eq_ok, GameSession.body]
            at hOk
          split at hOk
          · cases hOk
          next t hPaid =>
            rw [hPaid, (Prod.mk.inj (Except.ok.inj hOk)).1]
      | applyAction connection action amount =>
          simp [step, Idle] at hOk
      | removePlayer connection => simp [step, Idle] at hOk
  | _ => cases hAward

/- What an award reads, but for the winner's hand. -/
theorem GameSession.Alike.stakes_eq
    {p : PlayerId}
    {before before' : List ServerMessage}
    {s t : GameSession}
    (hAlike : s.Alike p before before' t) :
    t.foldedPlayers = s.foldedPlayers ∧ t.pot = s.pot ∧
      t.potPlayerStates = s.potPlayerStates ∧
      t.sidePotTotal = s.sidePotTotal ∧ t.names = s.names := by
  rcases hAlike.shown with ⟨h, hEq⟩
  rw [hEq]
  exact ⟨rfl, rfl, rfl, rfl, rfl⟩

/-
  Two runs of one hand in which the same calls are made are
  alike to `p` when both come to an award before the hand is
  shown down.
-/
theorem GameSession.SameTable.alike_at_award
    {s t : GameSession}
    {p : PlayerId}
    {shuffle shuffle' : Shuffle}
    {c₀ d₀ c d : Config}
    {steps steps' : List (Config × Event)}
    (hSame : s.SameTable t)
    (hDeal : Config.step ⟨s, .start⟩ (.proceed shuffle) =
      .ok c₀)
    (hDeal' : Config.step ⟨t, .start⟩ (.proceed shuffle') =
      .ok d₀)
    (hOwn : d₀.session.hands.find p =
      c₀.session.hands.find p)
    (run : Transition.Run Config.step c₀ steps c)
    (run' : Transition.Run Config.step d₀ steps' d)
    (hHand : ∀ x ∈ steps, x.1.Undecided)
    (hHand' : ∀ x ∈ steps', x.1.Undecided)
    (hCalls : Transition.callsOf Event.isCall steps' =
      Transition.callsOf Event.isCall steps)
    (hAward : c.pending.isAward = true)
    (hAward' : d.pending.isAward = true) :
    c.FaceDown ∧
      c.AlikeTo p (s.seenBy p) (t.seenBy p) d := by
  have hStart := hSame.dealt_alike hDeal hDeal' hOwn
  have hKeep : ∀ (c d : Config) (e e' : Event)
      (c' d' : Config),
      c.FaceDown ∧ c.AlikeTo p (s.seenBy p) (t.seenBy p) d →
      c.Undecided → d.Undecided →
      (e.isCall = true → e' = e) → e'.isCall = e.isCall →
      c.step e = .ok c' → d.step e' = .ok d' →
      c'.FaceDown ∧
        c'.AlikeTo p (s.seenBy p) (t.seenBy p) d' := by
    intro c d e e' c' d' hBoth hOpen _ hCall hKind hOk hOk'
    exact Config.FaceDown.alike_step hBoth
      hOpen.not_endsHand hCall hKind hOk hOk'
  have hCalled : ∀ (c : Config) (e : Event) (d : Config),
      c.Undecided → c.step e = .ok d →
      (e.isCall = true ↔
        c.Rests ∨ c.pending.isAward = true) := by
    intro c e d hOpen hOk
    have hNot : ¬ c.pending.isAward = true := by
      rw [hOpen.1.2]
      exact Bool.false_ne_true
    rw [or_iff_left hNot]
    exact Config.isCall_iff hOpen.not_endsHand hOk
  have hRests : ∀ c d : Config,
      c.FaceDown ∧ c.AlikeTo p (s.seenBy p) (t.seenBy p) d →
      (c.Rests ∨ c.pending.isAward = true ↔
        d.Rests ∨ d.pending.isAward = true) := by
    intro c d hBoth
    unfold Config.Rests Config.EndsHand
    rw [hBoth.2.1]
  exact run.lockstep hKeep hCalled hRests run' hCalls hHand
    hHand' (Or.inr hAward) (Or.inr hAward') hStart

/-
  Two runs of one hand in which the same calls are made and
  the same cards come on the board.  When `w` is the last one
  in, because the others have folded or left, the pot is
  awarded without a showdown.  Another player whose own hand
  is the same is then sent the same result exactly when there
  is nothing to pay, there is no flop, or the best hands of
  `w` are of one category.
-/
theorem GameSession.SameTable.soleResult_iff
    {table : Table}
    {trace : List (Config × Event)}
    {s t : GameSession}
    {p w : PlayerId}
    {shuffle shuffle' : Shuffle}
    {c₀ d₀ c d c' d' : Config}
    {steps steps' : List (Config × Event)}
    {e e' : Event}
    (prior : table.Run trace ⟨s, .start⟩)
    (hSame : s.SameTable t)
    (hDeal : Config.step ⟨s, .start⟩ (.proceed shuffle) =
      .ok c₀)
    (hDeal' : Config.step ⟨t, .start⟩ (.proceed shuffle') =
      .ok d₀)
    (hOwn : d₀.session.hands.find p =
      c₀.session.hands.find p)
    (run : Transition.Run Config.step c₀ steps c)
    (run' : Transition.Run Config.step d₀ steps' d)
    (hHand : ∀ x ∈ steps, x.1.Undecided)
    (hHand' : ∀ x ∈ steps', x.1.Undecided)
    (hCalls : Transition.callsOf Event.isCall steps' =
      Transition.callsOf Event.isCall steps)
    (hBoard : d.session.communityCards =
      c.session.communityCards)
    (hAward : c.pending.isAward = true)
    (hAward' : d.pending.isAward = true)
    (hWinner : w ∈ c.session.players)
    (hIn : w ∉ c.session.foldedPlayers)
    (hOk : c.step e = .ok c')
    (hOk' : d.step e' = .ok d')
    (hSeated : p ∈ c.session.players) :
    ∃ sent sent',
      c'.session.results p = c.session.results p ++ sent ∧
      d'.session.results p = d.session.results p ++ sent' ∧
      (sent' = sent ↔
        (c.session.pot = 0 ∨ c.session.sidePotTotal = 0) ∨
          c.session.communityCards.length < 3 ∨
          (d.session.strength w).category =
            (c.session.strength w).category) := by
  rcases hSame.alike_at_award hDeal hDeal' hOwn run run' hHand
      hHand' hCalls hAward hAward' with
    ⟨hFaceDown, _, hAlike⟩
  have hNodup : c.session.players.Nodup :=
    (Table.Run.inOrder
      (Transition.Run.append (.snoc prior hDeal) run)).1.nodup
  have hSettles : c.pending.settles = true := by
    cases hCall : c.pending with
    | awardAllPots next => rfl
    | _ => simp [hCall, Pending.isAward] at hAward
  have hOne := hFaceDown.sole hSettles
  have hResult := results_of_sole hNodup hOne hWinner hIn
    hSeated (Config.awarded_of_ok hAward hOk)
  have hPlayers := hAlike.players_eq
  rcases hAlike.stakes_eq with
    ⟨hFolded, hPot, hStates, hTotal, hNames⟩
  have hResult' := results_of_sole (s := d.session)
    (w := w) (p := p) (t := d'.session)
    (hPlayers ▸ hNodup)
    (hAlike.countActivePlayers_eq.trans hOne)
    (hPlayers ▸ hWinner) (hFolded ▸ hIn) (hPlayers ▸ hSeated)
    (Config.awarded_of_ok hAward' hOk')
  rw [hPot, hTotal, hStates, hNames] at hResult'
  rcases hResult with ⟨hNone, hHere⟩ |
    ⟨hSome, label, hLabel, hHere⟩
  · rcases hResult' with ⟨_, hThere⟩ | ⟨hNot, _⟩
    swap
    · exact absurd hNone hNot
    refine ⟨[], [], ?_, ?_, ?_⟩
    · rw [hHere, List.append_nil]
    · rw [hThere, List.append_nil]
    · exact iff_of_true rfl (Or.inl hNone)
  · rcases hResult' with ⟨hNone, _⟩ |
      ⟨_, label', hLabel', hThere⟩
    · exact absurd hNone hSome
    refine ⟨_, _, hHere, hThere, ?_⟩
    have hHandLabel := winnerHandLabel_eq_ok hLabel
    have hHandLabel' := winnerHandLabel_eq_ok hLabel'
    rw [hBoard] at hHandLabel'
    have hSameResult : ([⟨[c.session.names w],
          chipsIn (computeSidePots c.session.potPlayerStates),
          [label']⟩] : List HandResult) =
        [⟨[c.session.names w],
          chipsIn (computeSidePots c.session.potPlayerStates),
          [label]⟩] ↔ label' = label := by
      simp
    rw [hSameResult, hHandLabel, hHandLabel',
      or_iff_right hSome]
    by_cases hFlop : 3 ≤ c.session.communityCards.length
    · rw [if_pos hFlop, if_pos hFlop,
        or_iff_right (Nat.not_lt.mpr hFlop)]
      exact handCategoryLabel_injective.eq_iff
    · rw [if_neg hFlop, if_neg hFlop]
      exact iff_of_true rfl (Or.inl (Nat.not_le.mp hFlop))

/-
  The first deck of three players, with the cards of the
  first exchanged for the two that lie at its bottom.
-/
def Table.bottomDeck : Shuffle where
  cards := Deck.fresh.drop 50 ++
    (Deck.fresh.drop 2).take 48 ++ Deck.fresh.take 2
  perm := by decide +kernel

/- All call the blind, and the flop is dealt. -/
def Event.limpedFlop : List Event :=
  proceeds 1 ++ [act 0 .call] ++ proceeds 1 ++
    [act 1 .call] ++ proceeds 1 ++ [act 2 .check] ++
    proceeds 2

/- They fold to player 0, whose pot is due. -/
def Event.foldedFlop : List Event :=
  limpedFlop ++ [act 1 .fold] ++ proceeds 1 ++
    [act 2 .fold] ++ proceeds 1

/-
  Player 0 wins by folds on the flop.  Player 1 is told that
  his hand was a flush, with one deck, or only a high card,
  with a deck that gives everybody else the same cards.
-/
theorem Table.foldedFlop_labelled :
    ∃ c₀ d₀ steps steps' c d c' d',
      Config.step
          (numbered [1000, 1000, 1000] (by decide)).opening
          (.proceed .unshuffled) = .ok c₀ ∧
        Config.step
          (numbered [1000, 1000, 1000] (by decide)).opening
          (.proceed bottomDeck) = .ok d₀ ∧
        (∀ q ∈ c₀.session.players, q ≠ 0 →
          d₀.session.hands.find q =
            c₀.session.hands.find q) ∧
        Transition.Run Config.step c₀ steps c ∧
        Transition.Run Config.step d₀ steps' d ∧
        steps.map Prod.snd = Event.foldedFlop ∧
        steps'.map Prod.snd = Event.foldedFlop ∧
        (∀ x ∈ steps, x.1.Undecided) ∧
        (∀ x ∈ steps', x.1.Undecided) ∧
        d.session.communityCards =
          c.session.communityCards ∧
        c.pending.isAward = true ∧
        d.pending.isAward = true ∧
        0 ∉ c.session.foldedPlayers ∧
        c.step (.proceed .unshuffled) = .ok c' ∧
        d.step (.proceed .unshuffled) = .ok d' ∧
        c'.session.results 1 = [⟨["0"], 60, ["Flush"]⟩] ∧
        d'.session.results 1 =
          [⟨["0"], 60, ["High card"]⟩] := by
  let table := numbered [1000, 1000, 1000] (by decide)
  have hPasses :
      Transition.passes Config.step table.opening
        [.proceed .unshuffled] (fun _ c₀ =>
      Transition.passes Config.step table.opening
        [.proceed bottomDeck] (fun _ d₀ =>
      Transition.passes Config.step c₀ Event.foldedFlop
        (fun steps c =>
      Transition.passes Config.step d₀ Event.foldedFlop
        (fun steps' d =>
      Transition.passes Config.step c [.proceed .unshuffled]
        (fun _ c' =>
      Transition.passes Config.step d [.proceed .unshuffled]
        (fun _ d' =>
        decide ((∀ q ∈ c₀.session.players, q ≠ 0 →
            d₀.session.hands.find q =
              c₀.session.hands.find q) ∧
          (∀ x ∈ steps, x.1.Undecided) ∧
          (∀ x ∈ steps', x.1.Undecided) ∧
          d.session.communityCards =
            c.session.communityCards ∧
          c.pending.isAward = true ∧
          d.pending.isAward = true ∧
          0 ∉ c.session.foldedPlayers ∧
          c'.session.results 1 = [⟨["0"], 60, ["Flush"]⟩] ∧
          d'.session.results 1 =
            [⟨["0"], 60, ["High card"]⟩]))))))) = true := by
    decide +kernel
  rcases Transition.exists_step_of_passes hPasses with
    ⟨c₀, hDeal, hPasses⟩
  rcases Transition.exists_step_of_passes hPasses with
    ⟨d₀, hDeal', hPasses⟩
  rcases Transition.exists_run_on_of_passes hPasses with
    ⟨steps, c, run, hEvents, hPasses⟩
  rcases Transition.exists_run_on_of_passes hPasses with
    ⟨steps', d, run', hEvents', hPasses⟩
  rcases Transition.exists_step_of_passes hPasses with
    ⟨c', hOk, hPasses⟩
  rcases Transition.exists_step_of_passes hPasses with
    ⟨d', hOk', hTest⟩
  rcases of_decide_eq_true hTest with
    ⟨hOthers, hHand, hHand', hBoard, hAward, hAward', hIn,
      hResult, hResult'⟩
  exact ⟨c₀, d₀, steps, steps', c, d, c', d', hDeal, hDeal',
    hOthers, run, run', hEvents, hEvents', hHand, hHand',
    hBoard, hAward, hAward', hIn, hOk, hOk', hResult,
    hResult'⟩

/- They fold to player 2 before the flop. -/
def Event.foldedBlinds : List Event :=
  proceeds 1 ++ [act 0 .fold] ++ proceeds 1 ++
    [act 1 .fold] ++ proceeds 1

/- Nobody learns anything when no flop has been dealt. -/
theorem Table.foldedBlinds_hidden :
    ∃ c d : Config,
      d.session.hands.find 2 ≠ c.session.hands.find 2 ∧
        c.session.results 0 ≠ [] ∧
        d.session.results 0 = c.session.results 0 := by
  let table := numbered [1000, 1000, 1000] (by decide)
  have hPasses :
      Transition.passes Config.step table.opening
        [.proceed .unshuffled] (fun _ c₀ =>
      Transition.passes Config.step table.opening
        [.proceed exchangedDeck] (fun _ d₀ =>
      Transition.passes Config.step c₀ Event.foldedBlinds
        (fun steps c =>
      Transition.passes Config.step d₀ Event.foldedBlinds
        (fun steps' d =>
      Transition.passes Config.step c [.proceed .unshuffled]
        (fun _ c' =>
      Transition.passes Config.step d [.proceed .unshuffled]
        (fun _ d' =>
        decide (d₀.session.hands.find 0 =
            c₀.session.hands.find 0 ∧
          (∀ x ∈ steps, x.1.Undecided) ∧
          (∀ x ∈ steps', x.1.Undecided) ∧
          d.session.communityCards =
            c.session.communityCards ∧
          c.pending.isAward = true ∧
          d.pending.isAward = true ∧
          2 ∈ c.session.players ∧
          2 ∉ c.session.foldedPlayers ∧
          0 ∈ c.session.players ∧
          c.session.communityCards.length < 3 ∧
          d.session.results 0 = c.session.results 0 ∧
          d'.session.hands.find 2 ≠
            c'.session.hands.find 2 ∧
          c'.session.results 0 ≠ []))))))) = true := by
    decide +kernel
  rcases Transition.exists_step_of_passes hPasses with
    ⟨c₀, hDeal, hPasses⟩
  rcases Transition.exists_step_of_passes hPasses with
    ⟨d₀, hDeal', hPasses⟩
  rcases Transition.exists_run_on_of_passes hPasses with
    ⟨steps, c, run, hEvents, hPasses⟩
  rcases Transition.exists_run_on_of_passes hPasses with
    ⟨steps', d, run', hEvents', hPasses⟩
  rcases Transition.exists_step_of_passes hPasses with
    ⟨c', hOk, hPasses⟩
  rcases Transition.exists_step_of_passes hPasses with
    ⟨d', hOk', hTest⟩
  rcases of_decide_eq_true hTest with
    ⟨hOwn, hHand, hHand', hBoard, hAward, hAward', hWinner,
      hIn, hSeated, hNoFlop, hBefore, hOther, hSome⟩
  have hSame : table.create.SameTable table.create :=
    ⟨⟨⟨table.create.hands, table.create.deck,
      table.create.communityCards, table.create.bankrolls,
      table.create.log⟩, rfl⟩, fun _ => rfl⟩
  have hCalls : Transition.callsOf Event.isCall steps' =
      Transition.callsOf Event.isCall steps := by
    unfold Transition.callsOf
    rw [hEvents, hEvents']
  rcases GameSession.SameTable.soleResult_iff .nil hSame hDeal
      hDeal' hOwn run run' hHand hHand' hCalls hBoard hAward
      hAward' hWinner hIn hOk hOk' hSeated with
    ⟨sent, sent', hSent, hSent', hIff⟩
  have hEq := hIff.mpr (Or.inr (Or.inl hNoFlop))
  refine ⟨c', d', hOther, hSome, ?_⟩
  rw [hSent, hSent', hEq, hBefore]

end Server

end Poker
