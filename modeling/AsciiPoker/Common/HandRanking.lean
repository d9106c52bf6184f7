import AsciiPoker.Common.PokerRanking
import Mathlib.Algebra.BigOperators.Group.List.Lemmas
import Mathlib.Algebra.GroupWithZero.Nat
import Mathlib.Data.List.Dedup

/-
  The evaluator ranks hands in the standard order.

  What its loops find are the groups of a hand: the cards
  that occur so many times, the higher ones first.  So the
  cascade takes the branch of the hand's category, and the
  tiebreakers are its deciders, filled up with zeros.

  Main declarations:
    * `Ranking.shape_cases`, `Ranking.valueOccurring_eq`,
      `Ranking.isStraight_eq`
    * `IsHand`, `Evaluates`, `evaluateFive_eq`
    * `HandValue.compare`, `evaluateFive_standard`
    * `evaluateBest_standard`
-/

namespace Poker

namespace Ranking

------------------------------------------------------------
-- Groups
------------------------------------------------------------

variable {values : List Nat}
variable {v w : Nat}

instance
    (values : List Nat) :
    Std.Total (Precedes values) where
  total v w := by
    unfold Precedes
    omega

instance
    (values : List Nat) :
    IsTrans Nat (Precedes values) where
  trans u v w := by
    unfold Precedes
    omega

/- The groups are the different ranks of a hand. -/
theorem groups_perm
    (values : List Nat) :
    (groups values).Perm values.dedup :=
  List.perm_insertionSort _ _

theorem mem_groups :
    v ∈ groups values ↔ v ∈ values := by
  rw [(groups_perm values).mem_iff, List.mem_dedup]

theorem nodup_groups
    (values : List Nat) :
    (groups values).Nodup :=
  (groups_perm values).nodup_iff.mpr (List.nodup_dedup values)

/- What occurs more often comes first, then what is higher. -/
theorem groups_ordered
    (values : List Nat) :
    (groups values).Pairwise (Precedes values) :=
  List.pairwise_insertionSort _ _

/- Ranks that occur equally often stand in falling order. -/
theorem groups_filter_falling
    (values : List Nat)
    (times : Nat) :
    ((groups values).filter fun v =>
      values.count v = times).Pairwise (· > ·) := by
  have hBoth := (groups_ordered values).and
    (nodup_groups values)
  rw [List.pairwise_filter]
  apply hBoth.imp
  rintro v w ⟨hPrecedes, hNe⟩ hv hw
  have hCountV := of_decide_eq_true hv
  have hCountW := of_decide_eq_true hw
  unfold Precedes at hPrecedes
  omega

/- The counts fall, and add up to the number of cards. -/
theorem shape_falling
    (values : List Nat) :
    (shape values).Pairwise (· ≥ ·) := by
  rw [shape, List.pairwise_map]
  apply (groups_ordered values).imp
  intro v w hPrecedes
  unfold Precedes at hPrecedes
  omega

/- The groups make up the whole hand. -/
theorem shape_sum
    (values : List Nat) :
    (shape values).sum = values.length := by
  rw [shape, ((groups_perm values).map values.count).sum_nat]
  exact List.sum_map_count_dedup_eq_length values

theorem shape_pos
    {times : Nat}
    (hMem : times ∈ shape values) :
    0 < times := by
  rcases List.mem_map.mp hMem with ⟨v, hv, rfl⟩
  exact List.count_pos_iff.mpr (mem_groups.mp hv)

/- Five cards of which no five are equal have six shapes. -/
theorem shape_cases
    (hFive : values.length = 5)
    (hFew : ∀ v, values.count v ≤ 4) :
    shape values = [4, 1] ∨ shape values = [3, 2] ∨
      shape values = [3, 1, 1] ∨ shape values = [2, 2, 1] ∨
      shape values = [2, 1, 1, 1] ∨
      shape values = [1, 1, 1, 1, 1] := by
  have hFalling := shape_falling values
  have hSum := shape_sum values
  have hPos := @shape_pos values
  have hMost : ∀ times ∈ shape values, times ≤ 4 := by
    intro times hTimes
    rcases List.mem_map.mp hTimes with ⟨v, _, rfl⟩
    exact hFew v
  rw [hFive] at hSum
  generalize shape values = counts at *
  rcases counts with
    _ | ⟨a, _ | ⟨b, _ | ⟨c, _ | ⟨d, _ | ⟨e, _ | ⟨f, rest⟩⟩⟩⟩⟩⟩
  · simp only [List.sum_nil, reduceCtorEq] at hSum
  · have hAll := hMost a (List.mem_singleton_self a)
    simp only [List.sum_cons, List.sum_nil, add_zero] at hSum
    omega
  on_goal 5 =>
    -- Six counts that are not zero add up to more than five.
    simp only [List.sum_cons, List.mem_cons,
      forall_eq_or_imp] at hSum hPos
    omega
  all_goals
    simp only [ge_iff_le, List.pairwise_cons, List.mem_cons,
      List.not_mem_nil, or_false, forall_eq_or_imp,
      forall_eq, IsEmpty.forall_iff, implies_true,
      List.Pairwise.nil, and_true, List.sum_cons,
      List.sum_nil, add_zero, List.cons.injEq, reduceCtorEq,
      and_false, List.cons_ne_self, List.ne_cons_self,
      false_or] at hFalling hSum hPos hMost ⊢
    omega

/- Ranks that all differ occur once each. -/
theorem count_of_nodup
    {times : Nat}
    (hNodup : values.Nodup)
    (hMem : times ∈ shape values) :
    times = 1 := by
  rcases List.mem_map.mp hMem with ⟨v, hv, rfl⟩
  exact List.count_eq_one_of_mem hNodup (mem_groups.mp hv)

/- Five groups are five different ranks. -/
theorem nodup_of_shape
    (hShape : shape values = [1, 1, 1, 1, 1]) :
    values.Nodup := by
  rw [List.nodup_iff_count_le_one]
  intro v
  by_cases hMem : v ∈ values
  · have hCount : values.count v ∈ shape values :=
      List.mem_map_of_mem (mem_groups.mpr hMem)
    rw [hShape] at hCount
    simp at hCount
    omega
  · rw [List.count_eq_zero_of_not_mem hMem]
    exact Nat.zero_le 1

------------------------------------------------------------
-- What the Loops Find
------------------------------------------------------------

/- The ranks of cards lie between those of two and ace. -/
def InRange
    (values : List Nat) : Prop :=
  ∀ v ∈ values, 2 ≤ v ∧ v ≤ 14

/- The values as `evaluate_five_values` sorts them. -/
abbrev sorted
    (values : List Nat) : List Nat :=
  values.insertionSort (· ≥ ·)

theorem sorted_perm
    (values : List Nat) :
    (sorted values).Perm values :=
  List.perm_insertionSort _ _

/- The loops of the evaluator go from the ace to the two. -/
theorem mem_valuesDown :
    v ∈ valuesDown ↔ 2 ≤ v ∧ v ≤ 14 := by
  simp only [valuesDown, List.mem_cons, List.not_mem_nil,
    or_false]
  omega

/- The values that occur so often, in the order of a loop. -/
theorem filter_valuesDown
    {times : Nat}
    (hRange : InRange values)
    (hTimes : 0 < times) :
    (valuesDown.filter fun v =>
        (sorted values).count v == times) =
      (groups values).filter fun v =>
        values.count v = times := by
  apply List.Pairwise.eq_of_mem_iff (r := (· > ·))
  · have hDown : valuesDown.Pairwise (· > ·) := by decide
    exact hDown.sublist List.filter_sublist
  · exact groups_filter_falling values times
  · intro v
    rw [List.mem_filter, List.mem_filter, mem_valuesDown,
      mem_groups, (sorted_perm values).count_eq, beq_iff_eq,
      decide_eq_true_iff]
    constructor
    · rintro ⟨_, hCount⟩
      refine ⟨?_, hCount⟩
      rw [← List.count_pos_iff, hCount]
      exact hTimes
    · rintro ⟨hMem, hCount⟩
      exact ⟨hRange v hMem, hCount⟩

/- `valueOccurring` is the first of these. -/
theorem valueOccurring_eq
    {times : Nat}
    (hRange : InRange values)
    (hTimes : 0 < times) :
    valueOccurring (sorted values) times =
      (((groups values).filter fun v =>
        values.count v = times).head?).getD 0 := by
  unfold valueOccurring
  rw [← List.head?_filter, filter_valuesDown hRange hTimes]

/- The kickers: values that occur once, in falling order. -/
theorem filter_sorted_single
    (values : List Nat) :
    ((sorted values).filter fun v => values.count v = 1) =
      (groups values).filter fun v => values.count v = 1 := by
  apply List.Pairwise.eq_of_mem_iff (r := (· > ·))
  · have hFalling : (sorted values).Pairwise (· ≥ ·) :=
      List.pairwise_insertionSort _ _
    have hSingle : ((sorted values).filter fun v =>
        values.count v = 1).Nodup := by
      rw [List.nodup_iff_count_le_one]
      intro v
      by_cases hOnce : values.count v = 1
      · have hSub := @List.filter_sublist _
          (fun v => decide (values.count v = 1))
          (sorted values)
        have hCount := hSub.count_le v
        rw [(sorted_perm values).count_eq, hOnce] at hCount
        exact hCount
      · rw [List.count_eq_zero_of_not_mem]
        · exact Nat.zero_le 1
        · simp [hOnce]
    apply ((hFalling.sublist List.filter_sublist).and
      hSingle).imp
    rintro v w ⟨hGe, hNe⟩
    omega
  · exact groups_filter_falling values 1
  · intro v
    rw [List.mem_filter, List.mem_filter, mem_groups,
      (sorted_perm values).mem_iff]

------------------------------------------------------------
-- Straights
------------------------------------------------------------

/- Ranks in falling order, sorted upwards. -/
theorem insertionSort_straight
    {top : Nat}
    (hTop : 4 ≤ top) :
    [top, top - 1, top - 2, top - 3, top - 4].insertionSort
        (· ≤ ·) =
      [top - 4, top - 3, top - 2, top - 1, top] := by
  have hPerm : [top, top - 1, top - 2, top - 3, top - 4].Perm
      [top - 4, top - 3, top - 2, top - 1, top] :=
    (List.reverse_perm _).symm
  rw [insertionSort_eq_of_perm hPerm]
  apply List.Pairwise.insertionSort_eq
  simp
  omega

/- `is_straight` finds the top of a straight. -/
theorem isStraight_eq_some_iff
    {top : Nat}
    (hRange : InRange values)
    (hFive : values.length = 5) :
    isStraight values = some top ↔ Straight values top := by
  have hPerm := List.perm_insertionSort (· ≤ ·) values
  have hLength : (values.insertionSort (· ≤ ·)).length = 5 := by
    rw [List.length_insertionSort, hFive]
  constructor
  · intro hStraight
    unfold isStraight at hStraight
    dsimp only at hStraight
    match hSorted : values.insertionSort (· ≤ ·), hLength with
    | [a, b, c, d, e], _ =>
      rw [hSorted] at hStraight hPerm
      split at hStraight
      · rename_i hNext
        simp [List.range, List.range.loop] at hNext hStraight
        rcases hNext with ⟨rfl, rfl, rfl, rfl⟩
        refine Or.inl (hPerm.symm.trans ?_)
        subst hStraight
        exact (List.reverse_perm _).symm
      · split at hStraight
        · rename_i hWheel
          rw [hWheel] at hPerm
          cases hStraight
          exact Or.inr ⟨rfl, hPerm.symm.trans (by decide)⟩
        · cases hStraight
  · rintro (hTop | ⟨rfl, hWheel⟩)
    · have hLow := hRange (top - 4)
        (hTop.mem_iff.mpr (by simp))
      unfold isStraight
      rw [insertionSort_eq_of_perm hTop,
        insertionSort_straight (by omega)]
      simp [List.range, List.range.loop]
      omega
    · unfold isStraight
      rw [insertionSort_eq_of_perm hWheel]
      decide

/- A straight has one top. -/
theorem Straight.unique
    {top other : Nat}
    (hRange : InRange values)
    (hFive : values.length = 5)
    (hTop : Straight values top)
    (hOther : Straight values other) :
    top = other := by
  have hFirst := (isStraight_eq_some_iff hRange hFive).mpr hTop
  have hSecond :=
    (isStraight_eq_some_iff hRange hFive).mpr hOther
  exact Option.some.inj (hFirst.symm.trans hSecond)

/- No straight goes beyond the ace. -/
theorem Straight.top_le
    {top : Nat}
    (hRange : InRange values)
    (hStraight : Straight values top) :
    top ≤ 14 := by
  rcases hStraight with hTop | ⟨rfl, _⟩
  · exact (hRange top
      (hTop.mem_iff.mpr (List.mem_cons_self ..))).2
  · decide

/- So the evaluator finds the top that the order means. -/
theorem isStraight_eq
    (hRange : InRange values)
    (hFive : values.length = 5) :
    isStraight (sorted values) = straightTop values := by
  have hSame : isStraight (sorted values) =
      isStraight values := by
    unfold isStraight
    rw [insertionSort_eq_of_perm (sorted_perm values)]
  rw [hSame]
  cases hFound : isStraight values with
  | some top =>
      have hTop :=
        (isStraight_eq_some_iff hRange hFive).mp hFound
      apply Eq.symm
      unfold straightTop
      cases hFind : (List.range 15).find? fun top =>
          Straight values top with
      | none =>
          have hNone := List.find?_eq_none.mp hFind top
            (List.mem_range.mpr
              (Nat.lt_succ_of_le (hTop.top_le hRange)))
          exact absurd hTop (by simpa using hNone)
      | some other =>
          have hOther : Straight values other := by
            simpa using List.find?_some hFind
          rw [hOther.unique hRange hFive hTop]
  | none =>
      apply Eq.symm
      unfold straightTop
      rw [List.find?_eq_none]
      intro top _ hTop
      have hSome := (isStraight_eq_some_iff hRange hFive).mpr
        (of_decide_eq_true hTop)
      rw [hFound] at hSome
      cases hSome

/- A straight repeats no rank. -/
theorem Straight.nodup
    {top : Nat}
    (hRange : InRange values)
    (hStraight : Straight values top) :
    values.Nodup := by
  rcases hStraight with hTop | ⟨_, hWheel⟩
  · have hLow := hRange (top - 4)
      (hTop.mem_iff.mpr (by simp))
    rw [hTop.nodup_iff]
    simp
    omega
  · rw [hWheel.nodup_iff]
    decide

end Ranking

------------------------------------------------------------
-- The Cascade
------------------------------------------------------------

open Ranking

/- Five different cards. -/
structure IsHand
    (hand : List Card) : Prop where
  five : hand.length = 5
  nodup : hand.Nodup

namespace IsHand

variable {hand : List Card}

theorem rankValue_range
    (rank : Rank) :
    2 ≤ rankValue rank ∧ rankValue rank ≤ 14 := by
  cases rank <;> decide

theorem rankValue_injective :
    Function.Injective rankValue := by
  intro left right hSame
  cases left <;> cases right <;> first | rfl | cases hSame

/- A rank is a number from 2 to 14. -/
theorem inRange
    (hand : List Card) :
    InRange (ranks hand) := by
  intro v hv
  rcases List.mem_map.mp hv with ⟨card, _, rfl⟩
  exact rankValue_range card.rank

theorem ranks_length
    (hHand : IsHand hand) :
    (ranks hand).length = 5 := by
  rw [ranks, List.length_map, hHand.five]

/- There are four cards of a rank. -/
theorem count_le_four
    (hHand : IsHand hand)
    (v : Nat) :
    (ranks hand).count v ≤ 4 := by
  have hSuits : ((hand.filter fun card =>
      rankValue card.rank = v).map Card.suit).Nodup := by
    apply (hHand.nodup.filter _).map_on
    intro c hc d hd hSuit
    have hC := of_decide_eq_true (List.mem_filter.mp hc).2
    have hD := of_decide_eq_true (List.mem_filter.mp hd).2
    rcases c with ⟨suit, rank⟩
    rcases d with ⟨otherSuit, otherRank⟩
    cases rankValue_injective (hC.trans hD.symm)
    cases hSuit
    rfl
  have hAll : ((hand.filter fun card =>
      rankValue card.rank = v).map Card.suit) ⊆ Suit.all := by
    intro suit _
    cases suit <;> decide
  have hFour := (List.subperm_of_subset hSuits hAll).length_le
  have hCount : (ranks hand).count v =
      (hand.filter fun card =>
        rankValue card.rank = v).length := by
    rw [ranks, List.count, List.countP_map,
      List.countP_eq_length_filter]
    rfl
  rw [hCount, ← List.length_map (f := Card.suit)]
  exact hFour

/- Cards of one suit have different ranks. -/
theorem ranks_nodup
    (hHand : IsHand hand)
    (hSuited : SameSuit hand) :
    (ranks hand).Nodup := by
  apply hHand.nodup.map_on
  intro c hc d hd hRank
  have hSuit := hSuited c hc d hd
  rcases c with ⟨suit, rank⟩
  rcases d with ⟨otherSuit, otherRank⟩
  cases rankValue_injective hRank
  cases hSuit
  rfl

theorem shape_eq
    (hHand : IsHand hand) :
    shape (ranks hand) = [4, 1] ∨
      shape (ranks hand) = [3, 2] ∨
      shape (ranks hand) = [3, 1, 1] ∨
      shape (ranks hand) = [2, 2, 1] ∨
      shape (ranks hand) = [2, 1, 1, 1] ∨
      shape (ranks hand) = [1, 1, 1, 1, 1] :=
  shape_cases hHand.ranks_length hHand.count_le_four

/- With a pair there is neither a straight nor a flush. -/
theorem unconnected
    {times : Nat}
    (hHand : IsHand hand)
    (hMem : times ∈ shape (ranks hand))
    (hTimes : times ≠ 1) :
    straightTop (ranks hand) = none ∧ ¬ SameSuit hand := by
  have hTwice : ¬ (ranks hand).Nodup := by
    intro hNodup
    exact hTimes (count_of_nodup hNodup hMem)
  constructor
  · unfold straightTop
    rw [List.find?_eq_none]
    intro top _ hTop
    exact hTwice ((of_decide_eq_true hTop).nodup
      (inRange hand))
  · intro hSuited
    exact hTwice (hHand.ranks_nodup hSuited)

end IsHand

/- `evaluate_five` on sorted values. -/
theorem evaluateFive_sorted
    (hand : List Card) :
    evaluateFive hand =
      evaluateFiveValues (ranks hand)
        (decide (SameSuit hand)) := by
  have hFlush :
      (hand.all fun card =>
        card.suit = (hand.headD default).suit) =
      decide (SameSuit hand) := by
    rw [Bool.eq_iff_iff, all_suit_iff, decide_eq_true_iff]
  unfold evaluateFive
  dsimp only
  rw [hFlush]
  rfl

section Cascade

variable {hand : List Card}

theorem rank_ne_zero
    {v : Nat}
    (hMem : v ∈ groups (ranks hand)) :
    v ≠ 0 := by
  have hRange := IsHand.inRange hand v (mem_groups.mp hMem)
  omega

/- The ranks that occur so often, the higher ones first. -/
def occurring
    (values : List Nat)
    (times : Nat) : List Nat :=
  (groups values).filter fun v => values.count v = times

/- The cascade for hands without a straight or a flush. -/
theorem evaluateFive_unconnected
    (hHand : IsHand hand)
    (hStraight : straightTop (ranks hand) = none)
    (hSuits : ¬ SameSuit hand) :
    let values := ranks hand
    let four := (occurring values 4).head?.getD 0
    let trip := (occurring values 3).head?.getD 0
    let pair := (occurring values 2).head?.getD 0
    let pairs := (occurring values 2).take 2
    evaluateFive hand =
      if four ≠ 0 then
        ⟨.fourOfKind, tiebreakersOf
          [four, (occurring values 1).head?.getD 0]⟩
      else if trip ≠ 0 ∧ pair ≠ 0 then
        ⟨.fullHouse, tiebreakersOf [trip, pair]⟩
      else if trip ≠ 0 then
        ⟨.threeOfKind, tiebreakersOf (trip ::
          ((sorted values).filter fun v => v ≠ trip).take 2)⟩
      else if pairs.length = 2 then
        ⟨.twoPair, tiebreakersOf (pairs ++
          ((sorted values).filter fun v => v ∉ pairs).take 1)⟩
      else if pairs.length = 1 then
        ⟨.onePair, tiebreakersOf (pairs ++
          ((sorted values).filter fun v => v ∉ pairs).take 3)⟩
      else
        ⟨.highCard, sorted values⟩ := by
  have hRange := IsHand.inRange hand
  have hTop := isStraight_eq hRange hHand.ranks_length
  have hOccurring : ∀ times, 0 < times →
      valueOccurring (sorted (ranks hand)) times =
        (occurring (ranks hand) times).head?.getD 0 :=
    fun times hTimes => valueOccurring_eq hRange hTimes
  have hPairs : (valuesDown.filter fun v =>
      (sorted (ranks hand)).count v == 2) =
        occurring (ranks hand) 2 :=
    filter_valuesDown hRange (by decide)
  dsimp only
  rw [evaluateFive_sorted, evaluateFiveValues]
  simp only [hTop, hStraight, hSuits, hPairs,
    hOccurring 4 (by decide), hOccurring 3 (by decide),
    hOccurring 2 (by decide), hOccurring 1 (by decide),
    decide_false, Bool.false_and, Option.isSome_none,
    Bool.false_eq_true, if_false]

/- The kickers are the ranks that occur once. -/
theorem filter_kickers
    {values : List Nat}
    {keep : Nat → Bool}
    (hKeep : ∀ v ∈ groups values,
      keep v = decide (values.count v = 1)) :
    (sorted values).filter keep = occurring values 1 := by
  rw [occurring, ← filter_sorted_single]
  apply List.filter_congr
  intro v hv
  apply hKeep
  rw [mem_groups]
  exact (sorted_perm values).mem_iff.mp hv

/- How many deciders the hands of a category have. -/
def deciderCount : HandCategory → Nat
| .straightFlush => 1
| .fourOfKind => 2
| .fullHouse => 2
| .flush => 5
| .straight => 1
| .threeOfKind => 3
| .twoPair => 3
| .onePair => 4
| .highCard => 5

/- The value of a hand is its category and its deciders. -/
def Evaluates
    (hand : List Card) : Prop :=
  evaluateFive hand =
      ⟨category hand, tiebreakersOf (deciders hand)⟩ ∧
    (deciders hand).length = deciderCount (category hand)

/-
  Hands with a pair or more: their groups are named in the
  order of the deciders.
-/
theorem evaluateFive_fourOfKind
    (hHand : IsHand hand)
    (hShape : shape (ranks hand) = [4, 1]) :
    Evaluates hand := by
  rcases hHand.unconnected (by rw [hShape]; simp)
      (show (4 : Nat) ≠ 1 by decide) with ⟨hStraight, hSuits⟩
  have hCategory : category hand = .fourOfKind := by
    simp [category, categories, Meets, hShape, hStraight,
      hSuits]
  unfold shape at hShape
  rcases List.map_eq_cons_iff.mp hShape with
    ⟨x, rest, hGroups, hx, hRest⟩
  rcases List.map_eq_cons_iff.mp hRest with
    ⟨y, others, rfl, hy, hNone⟩
  cases List.map_eq_nil_iff.mp hNone
  have hZero : x ≠ 0 := rank_ne_zero (by rw [hGroups]; simp)
  unfold Evaluates
  rw [evaluateFive_unconnected hHand hStraight hSuits,
    hCategory]
  simp [occurring, deciders, deciderCount, hStraight,
    hGroups, hx, hy, hZero]

/- Three of a kind go before the pair. -/
theorem evaluateFive_fullHouse
    (hHand : IsHand hand)
    (hShape : shape (ranks hand) = [3, 2]) :
    Evaluates hand := by
  rcases hHand.unconnected (by rw [hShape]; simp)
      (show (3 : Nat) ≠ 1 by decide) with ⟨hStraight, hSuits⟩
  have hCategory : category hand = .fullHouse := by
    simp [category, categories, Meets, hShape, hStraight,
      hSuits]
  unfold shape at hShape
  rcases List.map_eq_cons_iff.mp hShape with
    ⟨x, rest, hGroups, hx, hRest⟩
  rcases List.map_eq_cons_iff.mp hRest with
    ⟨y, others, rfl, hy, hNone⟩
  cases List.map_eq_nil_iff.mp hNone
  have hZero : x ≠ 0 := rank_ne_zero (by rw [hGroups]; simp)
  have hOther : y ≠ 0 := rank_ne_zero (by rw [hGroups]; simp)
  unfold Evaluates
  rw [evaluateFive_unconnected hHand hStraight hSuits,
    hCategory]
  simp [occurring, deciders, deciderCount, hStraight,
    hGroups, hx, hy, hZero, hOther]

/- Three of a kind go before the two kickers. -/
theorem evaluateFive_threeOfKind
    (hHand : IsHand hand)
    (hShape : shape (ranks hand) = [3, 1, 1]) :
    Evaluates hand := by
  rcases hHand.unconnected (by rw [hShape]; simp)
      (show (3 : Nat) ≠ 1 by decide) with ⟨hStraight, hSuits⟩
  have hCategory : category hand = .threeOfKind := by
    simp [category, categories, Meets, hShape, hStraight,
      hSuits]
  unfold shape at hShape
  rcases List.map_eq_cons_iff.mp hShape with
    ⟨x, rest, hGroups, hx, hRest⟩
  rcases List.map_eq_cons_iff.mp hRest with
    ⟨y, rest, rfl, hy, hRest⟩
  rcases List.map_eq_cons_iff.mp hRest with
    ⟨z, others, rfl, hz, hNone⟩
  cases List.map_eq_nil_iff.mp hNone
  have hZero : x ≠ 0 := rank_ne_zero (by rw [hGroups]; simp)
  have hDiffer := nodup_groups (ranks hand)
  rw [hGroups] at hDiffer
  have hKickers := @filter_kickers (ranks hand)
    (fun v => v ≠ x) (by
      rw [hGroups]
      simp [hx, hy, hz] at hDiffer ⊢
      omega)
  unfold Evaluates
  rw [evaluateFive_unconnected hHand hStraight hSuits,
    hCategory]
  simp [occurring, deciders, deciderCount, hStraight,
    hGroups, hx, hy, hz, hZero] at hKickers ⊢
  simp [hKickers]

/-
  The higher pair goes first, then the lower, then the
  kicker.
-/
theorem evaluateFive_twoPair
    (hHand : IsHand hand)
    (hShape : shape (ranks hand) = [2, 2, 1]) :
    Evaluates hand := by
  rcases hHand.unconnected (by rw [hShape]; simp)
      (show (2 : Nat) ≠ 1 by decide) with ⟨hStraight, hSuits⟩
  have hCategory : category hand = .twoPair := by
    simp [category, categories, Meets, hShape, hStraight,
      hSuits]
  unfold shape at hShape
  rcases List.map_eq_cons_iff.mp hShape with
    ⟨x, rest, hGroups, hx, hRest⟩
  rcases List.map_eq_cons_iff.mp hRest with
    ⟨y, rest, rfl, hy, hRest⟩
  rcases List.map_eq_cons_iff.mp hRest with
    ⟨z, others, rfl, hz, hNone⟩
  cases List.map_eq_nil_iff.mp hNone
  have hDiffer := nodup_groups (ranks hand)
  rw [hGroups] at hDiffer
  have hKickers := @filter_kickers (ranks hand)
    (fun v => v ∉ [x, y]) (by
      rw [hGroups]
      simp [hx, hy, hz] at hDiffer ⊢
      omega)
  unfold Evaluates
  rw [evaluateFive_unconnected hHand hStraight hSuits,
    hCategory]
  simp [occurring, deciders, deciderCount, hStraight,
    hGroups, hx, hy, hz] at hKickers ⊢
  simp [hKickers]

/- The pair goes before the three kickers. -/
theorem evaluateFive_onePair
    (hHand : IsHand hand)
    (hShape : shape (ranks hand) = [2, 1, 1, 1]) :
    Evaluates hand := by
  rcases hHand.unconnected (by rw [hShape]; simp)
      (show (2 : Nat) ≠ 1 by decide) with ⟨hStraight, hSuits⟩
  have hCategory : category hand = .onePair := by
    simp [category, categories, Meets, hShape, hStraight,
      hSuits]
  unfold shape at hShape
  rcases List.map_eq_cons_iff.mp hShape with
    ⟨x, rest, hGroups, hx, hRest⟩
  rcases List.map_eq_cons_iff.mp hRest with
    ⟨y, rest, rfl, hy, hRest⟩
  rcases List.map_eq_cons_iff.mp hRest with
    ⟨z, rest, rfl, hz, hRest⟩
  rcases List.map_eq_cons_iff.mp hRest with
    ⟨w, others, rfl, hw, hNone⟩
  cases List.map_eq_nil_iff.mp hNone
  have hDiffer := nodup_groups (ranks hand)
  rw [hGroups] at hDiffer
  have hKickers := @filter_kickers (ranks hand)
    (fun v => v ∉ [x]) (by
      rw [hGroups]
      simp [hx, hy, hz, hw] at hDiffer ⊢
      omega)
  unfold Evaluates
  rw [evaluateFive_unconnected hHand hStraight hSuits,
    hCategory]
  simp [occurring, deciders, deciderCount, hStraight,
    hGroups, hx, hy, hz, hw] at hKickers ⊢
  simp [hKickers]

/- Five different ranks are their own groups. -/
theorem groups_eq_sorted
    {values : List Nat}
    (hNodup : values.Nodup) :
    groups values = sorted values := by
  have hOnce : ∀ v ∈ values, values.count v = 1 := by
    intro v hv
    exact List.count_eq_one_of_mem hNodup hv
  have hSingle := filter_sorted_single values
  rw [List.filter_eq_self.mpr, List.filter_eq_self.mpr]
    at hSingle
  · exact hSingle.symm
  · intro v hv
    exact decide_eq_true (hOnce v (mem_groups.mp hv))
  · intro v hv
    exact decide_eq_true
      (hOnce v ((sorted_perm values).mem_iff.mp hv))

/- Different ranks: a straight, a flush, both or neither. -/
theorem evaluateFive_different
    (hHand : IsHand hand)
    (hShape : shape (ranks hand) = [1, 1, 1, 1, 1]) :
    Evaluates hand := by
  have hRange := IsHand.inRange hand
  have hTop := isStraight_eq hRange hHand.ranks_length
  have hNodup := nodup_of_shape hShape
  have hGroups := groups_eq_sorted hNodup
  have hNone : ∀ times, times ≠ 1 →
      occurring (ranks hand) times = [] := by
    intro times hTimes
    rw [occurring, List.filter_eq_nil_iff]
    intro v hv hCount
    have hOnce := List.count_eq_one_of_mem hNodup
      (mem_groups.mp hv)
    exact hTimes ((of_decide_eq_true hCount).symm.trans hOnce)
  have hFour : valueOccurring (sorted (ranks hand)) 4 = 0 := by
    rw [valueOccurring_eq hRange (by decide)]
    exact congrArg (fun l : List Nat => l.head?.getD 0)
      (hNone 4 (by decide))
  have hThree : valueOccurring (sorted (ranks hand)) 3 = 0 := by
    rw [valueOccurring_eq hRange (by decide)]
    exact congrArg (fun l : List Nat => l.head?.getD 0)
      (hNone 3 (by decide))
  have hPairs : (valuesDown.filter fun v =>
      (sorted (ranks hand)).count v == 2) = [] := by
    rw [filter_valuesDown hRange (by decide)]
    exact hNone 2 (by decide)
  have hFull : tiebreakersOf (sorted (ranks hand)) =
      sorted (ranks hand) := by
    have hFive : (sorted (ranks hand)).length = 5 := by
      rw [List.length_insertionSort, hHand.ranks_length]
    rw [tiebreakersOf, hFive]
    exact List.append_nil _
  unfold Evaluates
  rw [evaluateFive_sorted, evaluateFiveValues]
  simp only [hTop, hFour, hThree, hPairs]
  cases hFound : straightTop (ranks hand) with
  | none =>
      by_cases hSuits : SameSuit hand
      · have hCategory : category hand = .flush := by
          simp [category, categories, Meets, hShape, hFound,
            hSuits]
        simp [hCategory, deciders, deciderCount, hFound, hSuits,
          hGroups, hFull, hHand.ranks_length]
      · have hCategory : category hand = .highCard := by
          simp [category, categories, Meets, hShape, hFound,
            hSuits]
          split <;> rfl
        simp [hCategory, deciders, deciderCount, hFound, hSuits,
          hGroups, hFull, hHand.ranks_length]
  | some top =>
      by_cases hSuits : SameSuit hand
      · have hCategory : category hand = .straightFlush := by
          simp [category, categories, Meets, hFound, hSuits]
        simp [hCategory, deciders, deciderCount, hFound, hSuits]
      · have hCategory : category hand = .straight := by
          simp [category, categories, Meets, hShape, hFound,
            hSuits]
        simp [hCategory, deciders, deciderCount, hFound, hSuits]

/- Category and deciders of a hand are what is computed. -/
theorem evaluateFive_eq
    (hHand : IsHand hand) :
    Evaluates hand := by
  rcases hHand.shape_eq with
    hShape | hShape | hShape | hShape | hShape | hShape
  · exact evaluateFive_fourOfKind hHand hShape
  · exact evaluateFive_fullHouse hHand hShape
  · exact evaluateFive_threeOfKind hHand hShape
  · exact evaluateFive_twoPair hHand hShape
  · exact evaluateFive_onePair hHand hShape
  · exact evaluateFive_different hHand hShape

end Cascade

------------------------------------------------------------
-- Comparing Hands
------------------------------------------------------------

theorem compareEntries_self
    (entries : List Nat) :
    compareEntries entries entries = .eq := by
  induction entries with
  | nil => rfl
  | cons entry entries ih => simp [compareEntries, ih]

/- What two lists end with in common decides nothing. -/
theorem compareEntries_append
    {lefts rights : List Nat}
    (rest : List Nat)
    (hLength : lefts.length = rights.length) :
    compareEntries (lefts ++ rest) (rights ++ rest) =
      compareEntries lefts rights := by
  induction lefts generalizing rights with
  | nil =>
      cases List.eq_nil_of_length_eq_zero hLength.symm
      exact compareEntries_self rest
  | cons left lefts ih =>
      cases rights with
      | nil => cases hLength
      | cons right rights =>
          simp only [List.cons_append, compareEntries]
          rw [ih (Nat.succ.inj hLength)]

/- Lists of one length are compared as `<` compares them. -/
theorem compareEntries_eq_lt_iff
    {lefts rights : List Nat}
    (hLength : lefts.length = rights.length) :
    compareEntries lefts rights = .lt ↔ lefts < rights := by
  induction lefts generalizing rights with
  | nil =>
      cases List.eq_nil_of_length_eq_zero hLength.symm
      simp [compareEntries]
  | cons left lefts ih =>
      cases rights with
      | nil => cases hLength
      | cons right rights =>
          rw [compareEntries, Ordering.then_eq_lt,
            compare_lt_iff_lt, compare_eq_iff_eq,
            ih (Nat.succ.inj hLength), List.cons_lt_cons_iff]

/- The defaulted `<=>`: the category, then the array. -/
def HandValue.compare
    (left right : HandValue) : Ordering :=
  (Ord.compare left.category.toNat
      right.category.toNat).then
    (compareEntries left.tiebreakers right.tiebreakers)

/- And `<` is what it says. -/
theorem HandValue.compare_eq_lt_iff
    {left right : HandValue}
    (hLength : left.tiebreakers.length =
      right.tiebreakers.length) :
    left.compare right = .lt ↔ left < right :=
  @compareEntries_eq_lt_iff left.key right.key
    (congrArg Nat.succ hLength)

/- Values compare as the hands do in the standard order. -/
theorem evaluateFive_compare
    {left right : List Card}
    (hLeft : IsHand left)
    (hRight : IsHand right) :
    (evaluateFive left).compare (evaluateFive right) =
      compareHands left right := by
  rcases evaluateFive_eq hLeft with ⟨hLeftEq, hLeftCount⟩
  rcases evaluateFive_eq hRight with ⟨hRightEq, hRightCount⟩
  rw [hLeftEq, hRightEq]
  unfold HandValue.compare compareHands
  dsimp only
  by_cases hSame : category left = category right
  · have hCounts : (deciders left).length =
        (deciders right).length := by
      rw [hLeftCount, hRightCount, hSame]
    rw [tiebreakersOf, tiebreakersOf, hCounts,
      compareEntries_append _ hCounts]
  · have hDiffer : compare (category left).toNat
        (category right).toNat ≠ .eq := by
      intro hEq
      exact hSame (HandCategory.toNat_injective
        (compare_eq_iff_eq.mp hEq))
    cases hOrder : compare (category left).toNat
        (category right).toNat with
    | lt => rfl
    | gt => rfl
    | eq => exact absurd hOrder hDiffer

/- So the code's order of hands is that of the rules. -/
theorem evaluateFive_lt_iff
    {left right : List Card}
    (hLeft : IsHand left)
    (hRight : IsHand right) :
    evaluateFive left < evaluateFive right ↔
      compareHands left right = .lt := by
  have hFive : ∀ {hand : List Card}, IsHand hand →
      (evaluateFive hand).tiebreakers.length = 5 :=
    fun hHand => length_tiebreakers _ hHand.ranks_length
  rw [← evaluateFive_compare hLeft hRight,
    HandValue.compare_eq_lt_iff]
  rw [hFive hLeft, hFive hRight]

/-
  Of different cards, the best value is that of five which
  no other five beat in the standard order.
-/
theorem evaluateBest_standard
    {cards : List Card}
    (hNodup : cards.Nodup)
    (hFive : 5 ≤ cards.length) :
    ∃ best : List Card,
      best.Sublist cards ∧
      best.length = 5 ∧
      evaluateFive best = evaluateBest cards ∧
      ∀ five : List Card,
        five.Sublist cards →
        five.length = 5 →
          compareHands best five ≠ .lt := by
  rcases evaluateBest_isMax hFive with
    ⟨hMax, best, hBest, hLength, hEq⟩
  refine ⟨best, hBest, hLength, hEq, ?_⟩
  intro five hSublist hFiveLength hLt
  have hBeaten := (evaluateFive_lt_iff
    ⟨hLength, hBest.nodup hNodup⟩
    ⟨hFiveLength, hSublist.nodup hNodup⟩).mpr hLt
  have hLe := hMax five hSublist hFiveLength
  rw [← hEq] at hLe
  exact absurd hBeaten (HandValue.not_lt_of_le hLe)

/-
  Two hands of five different cards compare as the standard
  order has it.  The value of a hand depends neither on the
  order of its cards nor on their suits, as long as they are
  of one suit or are not.
-/
theorem evaluateFive_standard
    (left right : List Card)
    (hLeft : IsHand left)
    (hRight : IsHand right) :
    (evaluateFive left).compare (evaluateFive right) =
        compareHands left right ∧
      (∀ others, others.Perm left →
        evaluateFive others = evaluateFive left) ∧
      ∀ others,
        others.map Card.rank = left.map Card.rank →
        (SameSuit others ↔ SameSuit left) →
        evaluateFive others = evaluateFive left := by
  refine ⟨evaluateFive_compare hLeft hRight, ?_, ?_⟩
  · intro others hPerm
    exact evaluateFive_perm hPerm
  · intro others hRanks hSuited
    apply evaluateFive_congr _ hSuited
    rw [hRanks]

/- A wheel loses to the straight up to the six. -/
theorem evaluateFive_standard_wheel :
    (evaluateFive
        [⟨.clubs, .ace⟩, ⟨.hearts, .two⟩, ⟨.clubs, .three⟩,
          ⟨.clubs, .four⟩, ⟨.clubs, .five⟩]).compare
      (evaluateFive
        [⟨.hearts, .six⟩, ⟨.hearts, .two⟩, ⟨.clubs, .three⟩,
          ⟨.clubs, .four⟩, ⟨.clubs, .five⟩]) = .lt := by
  rw [(evaluateFive_standard
    [⟨.clubs, .ace⟩, ⟨.hearts, .two⟩, ⟨.clubs, .three⟩,
      ⟨.clubs, .four⟩, ⟨.clubs, .five⟩]
    [⟨.hearts, .six⟩, ⟨.hearts, .two⟩, ⟨.clubs, .three⟩,
      ⟨.clubs, .four⟩, ⟨.clubs, .five⟩]
    ⟨rfl, by decide⟩ ⟨rfl, by decide⟩).1]
  decide

end Poker
