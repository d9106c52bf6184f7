import AsciiPoker.Common.HandEvaluator
import AsciiPoker.Library.Combinations

/-
  The best five of many cards.

  The stepper goes through all choices of five indices once,
  in lexicographic order, and the loop keeps the greatest
  value.  The value of five cards does not depend on their
  order, so that of many does not either.

  Main declarations:
    * `HandValue.key_injective`, `evaluateFive_perm`
    * `nextCombination_visits`
    * `evaluateBest_isMax`, `evaluateBest_mono`,
      `evaluateBest_greatest`
-/

namespace Poker

open Stepper Combinations

------------------------------------------------------------
-- The Order of Hand Values
------------------------------------------------------------

/- Categories have different ranks. -/
theorem HandCategory.toNat_injective :
    Function.Injective HandCategory.toNat := by
  intro left right hSame
  cases left <;> cases right <;> first | rfl | cases hSame

namespace HandValue

/- So a value is known by its key. -/
theorem key_injective :
    Function.Injective key := by
  intro left right hSame
  rcases left with ⟨leftCategory, leftEntries⟩
  rcases right with ⟨rightCategory, rightEntries⟩
  rcases List.cons.inj hSame with ⟨hCategory, hEntries⟩
  cases HandCategory.toNat_injective hCategory
  cases hEntries
  rfl

/- Values are ordered as their keys are. -/
instance : LE HandValue :=
  ⟨fun left right => left.key ≤ right.key⟩

/- Which can be decided. -/
instance
    (left right : HandValue) :
    Decidable (left ≤ right) :=
  inferInstanceAs (Decidable (left.key ≤ right.key))

variable {left right other : HandValue}

/- The order is total. -/
theorem le_of_not_lt
    (hNot : ¬ left < right) :
    right ≤ left :=
  not_lt.mp (show ¬ left.key < right.key from hNot)

/- It contains the strict one. -/
theorem le_of_lt
    (hLt : left < right) :
    left ≤ right :=
  (show left.key < right.key from hLt).le

/- And excludes its converse. -/
theorem not_lt_of_le
    (hLe : left ≤ right) :
    ¬ right < left :=
  not_lt.mpr (show left.key ≤ right.key from hLe)

/- Inherited from the lists of numbers. -/
theorem le_trans
    (hFirst : left ≤ right)
    (hSecond : right ≤ other) :
    left ≤ other :=
  (show left.key ≤ right.key from hFirst).trans hSecond

/- Values of equal rank are equal. -/
theorem le_antisymm
    (hLe : left ≤ right)
    (hGe : right ≤ left) :
    left = right :=
  key_injective
    ((show left.key ≤ right.key from hLe).antisymm hGe)

end HandValue

------------------------------------------------------------
-- Five Cards in Any Order
------------------------------------------------------------

/- Sorting forgets the order. -/
theorem insertionSort_eq_of_perm
    {r : Nat → Nat → Prop}
    [DecidableRel r]
    [Std.Antisymm r]
    [Std.Total r]
    [IsTrans Nat r]
    {values others : List Nat}
    (hPerm : values.Perm others) :
    values.insertionSort r = others.insertionSort r := by
  apply List.Perm.eq_of_pairwise'
    (List.pairwise_insertionSort r values)
    (List.pairwise_insertionSort r others)
  exact ((List.perm_insertionSort r values).trans hPerm).trans
    (List.perm_insertionSort r others).symm

/- The ranks are sorted first. -/
theorem evaluateFiveValues_perm
    {values others : List Nat}
    (flush : Bool)
    (hPerm : values.Perm others) :
    evaluateFiveValues values flush =
      evaluateFiveValues others flush := by
  unfold evaluateFiveValues
  rw [insertionSort_eq_of_perm hPerm]

/- All cards are of one suit. -/
def SameSuit
    (cards : List Card) : Prop :=
  ∀ c ∈ cards, ∀ d ∈ cards, c.suit = d.suit

/- The code compares with the first card. -/
theorem all_suit_iff
    (cards : List Card) :
    (cards.all fun card =>
        card.suit = (cards.headD default).suit) = true ↔
      SameSuit cards := by
  cases cards with
  | nil => simp [SameSuit]
  | cons first rest =>
      rw [List.headD_cons, List.all_eq_true]
      constructor
      · intro hAll c hc d hd
        have hFirst := of_decide_eq_true (hAll c hc)
        exact hFirst.trans (of_decide_eq_true (hAll d hd)).symm
      · intro hSame c hc
        exact decide_eq_true
          (hSame c hc first (List.mem_cons_self ..))

/- The ranks of five cards, and whether they are suited. -/
theorem evaluateFive_congr
    {cards others : List Card}
    (hRanks : (cards.map Card.rank).Perm
      (others.map Card.rank))
    (hSuited : SameSuit cards ↔ SameSuit others) :
    evaluateFive cards = evaluateFive others := by
  have hFlush :
      (cards.all fun card =>
        card.suit = (cards.headD default).suit) =
      (others.all fun card =>
        card.suit = (others.headD default).suit) := by
    rw [Bool.eq_iff_iff, all_suit_iff, all_suit_iff]
    exact hSuited
  have hValues := hRanks.map rankValue
  rw [List.map_map, List.map_map] at hValues
  unfold evaluateFive
  dsimp only
  rw [hFlush]
  exact evaluateFiveValues_perm _ hValues

/- So the order of the cards is no matter. -/
theorem evaluateFive_perm
    {cards others : List Card}
    (hPerm : cards.Perm others) :
    evaluateFive cards = evaluateFive others := by
  apply evaluateFive_congr (hPerm.map Card.rank)
  unfold SameSuit
  simp only [hPerm.mem_iff]

------------------------------------------------------------
-- The Least Value
------------------------------------------------------------

/- The array is filled up with zeros. -/
theorem length_tiebreakersOf
    {entries : List Nat}
    (hLength : entries.length ≤ 5) :
    (tiebreakersOf entries).length = 5 := by
  simp only [tiebreakersOf, List.length_append,
    List.length_replicate]
  omega

/- The value of five cards has five tiebreakers. -/
theorem length_tiebreakers
    {values : List Nat}
    (flush : Bool)
    (hFive : values.length = 5) :
    (evaluateFiveValues values flush).tiebreakers.length =
      5 := by
  have hSorted : (values.insertionSort (· ≥ ·)).length = 5 := by
    rw [List.length_insertionSort, hFive]
  have hTake : ∀ (count : Nat) (l : List Nat),
      (l.take count).length ≤ count :=
    fun count l => List.length_take_le count l
  unfold evaluateFiveValues
  dsimp only
  split
  · exact length_tiebreakersOf (by simp)
  split
  · exact length_tiebreakersOf (by simp)
  split
  · exact length_tiebreakersOf (by simp)
  split
  · exact hSorted
  split
  · exact length_tiebreakersOf (by simp)
  split
  · apply length_tiebreakersOf
    rw [List.length_cons]
    have := hTake 2 ((values.insertionSort (· ≥ ·)).filter
      fun v => v ≠ valueOccurring
        (values.insertionSort (· ≥ ·)) 3)
    omega
  split
  · rename_i hPairs
    apply length_tiebreakersOf
    rw [List.length_append, hPairs]
    have := hTake 1 ((values.insertionSort (· ≥ ·)).filter
      fun v => v ∉ (valuesDown.filter fun v =>
        (values.insertionSort (· ≥ ·)).count v == 2).take 2)
    omega
  split
  · rename_i hPairs
    apply length_tiebreakersOf
    rw [List.length_append, hPairs]
    have := hTake 3 ((values.insertionSort (· ≥ ·)).filter
      fun v => v ∉ (valuesDown.filter fun v =>
        (values.insertionSort (· ≥ ·)).count v == 2).take 2)
    omega
  · exact hSorted

/- Zeros come before all other lists of their length. -/
theorem replicate_zero_le
    (entries : List Nat) :
    List.replicate entries.length 0 ≤ entries := by
  induction entries with
  | nil => exact le_refl _
  | cons entry entries ih =>
      rw [List.length_cons, List.replicate_succ]
      rcases Nat.eq_zero_or_pos entry with rfl | hPos
      · rcases ih.eq_or_lt with hSame | hLt
        · exact (congrArg (List.cons 0) hSame).le
        · exact (List.cons_lt_cons_iff.mpr
            (.inr ⟨rfl, hLt⟩)).le
      · exact (List.cons_lt_cons_iff.mpr (.inl hPos)).le

/- The value to begin with is below that of five cards. -/
theorem default_le_evaluateFive
    {hand : List Card}
    (hFive : hand.length = 5) :
    ({} : HandValue) ≤ evaluateFive hand := by
  have hLength : (evaluateFive hand).tiebreakers.length = 5 :=
    length_tiebreakers _ (by rw [List.length_map, hFive])
  have hLe := replicate_zero_le (evaluateFive hand).key
  have hKey : (evaluateFive hand).key.length = 6 := by
    rw [HandValue.key, List.length_cons, hLength]
  rw [hKey] at hLe
  exact hLe

------------------------------------------------------------
-- The Greatest Value
------------------------------------------------------------

/- The loop keeps the greater of two values. -/
def better
    (best value : HandValue) : HandValue :=
  if best < value then value else best

/- The result is no less than any value seen. -/
theorem le_foldl_better
    (values : List HandValue)
    (best : HandValue) :
    best ≤ values.foldl better best ∧
      ∀ value ∈ values, value ≤ values.foldl better best := by
  induction values generalizing best with
  | nil => exact ⟨le_refl best.key, by simp⟩
  | cons value values ih =>
      rw [List.foldl_cons]
      rcases ih (better best value) with ⟨hStart, hRest⟩
      have hBoth : best ≤ better best value ∧
          value ≤ better best value := by
        unfold better
        split
        · rename_i hLt
          exact ⟨HandValue.le_of_lt hLt, le_refl value.key⟩
        · rename_i hNot
          exact ⟨le_refl best.key, HandValue.le_of_not_lt hNot⟩
      refine ⟨HandValue.le_trans hBoth.1 hStart, ?_⟩
      exact List.forall_mem_cons.mpr
        ⟨HandValue.le_trans hBoth.2 hStart, hRest⟩

/- And it is one of them, or the initial one. -/
theorem foldl_better_mem
    (values : List HandValue)
    (best : HandValue) :
    values.foldl better best = best ∨
      values.foldl better best ∈ values := by
  induction values generalizing best with
  | nil => exact Or.inl rfl
  | cons value values ih =>
      rw [List.foldl_cons]
      rcases ih (better best value) with hSame | hMem
      · rw [hSame]
        unfold better
        split
        · exact Or.inr (List.mem_cons_self ..)
        · exact Or.inl rfl
      · exact Or.inr (List.mem_cons_of_mem _ hMem)

------------------------------------------------------------
-- The Choices of Five
------------------------------------------------------------

/- On five indices the stepper is the successor. -/
theorem nextCombination_eq
    {n : Nat}
    {indices : List Nat}
    (hn : 5 ≤ n)
    (hFive : indices.length = 5) :
    nextCombination n indices = successor n indices := by
  match indices, hFive with
  | [a, b, c, d, e], _ =>
    have h4 : e = 4 + n - 5 ↔ e + 1 = n := by omega
    have h3 : d = 3 + n - 5 ↔ d + 2 = n := by omega
    have h2 : c = 2 + n - 5 ↔ c + 3 = n := by omega
    have h1 : b = 1 + n - 5 ↔ b + 4 = n := by omega
    have h0 : a = n - 5 ↔ a + 5 = n := by omega
    have hReset : ∀ count x,
        (List.range count).map (fun j => x + 1 + j) =
          List.range' (x + 1) count := by
      intro count x
      exact List.range'_eq_map_range.symm
    by_cases he : e + 1 = n
    · by_cases hd : d + 2 = n
      · by_cases hc : c + 3 = n
        · by_cases hb : b + 4 = n
          · by_cases ha : a + 5 = n
            · simp [nextCombination, successor, h4, h3, h2, h1,
                h0, he, hd, hc, hb, ha]
            · simp [nextCombination, successor, h4, h3, h2, h1,
                h0, he, hd, hc, hb, ha, hReset]
          · simp [nextCombination, successor, h4, h3, h2, h1,
              he, hd, hc, hb, hReset]
        · simp [nextCombination, successor, h4, h3, h2,
            he, hd, hc, hReset]
      · simp [nextCombination, successor, h4, h3, he, hd,
          hReset]
    · simp [nextCombination, successor, h4, he, hReset]

/- The stepper visits each choice once, and then stops. -/
theorem nextCombination_visits
    {n : Nat}
    (hn : 5 ≤ n) :
    Visits (nextCombination n) [0, 1, 2, 3, 4]
      (inOrder 5 (List.range n)) := by
  have hVisits := @visits_inOrder 5 n 0 hn
  rw [Nat.zero_add] at hVisits
  rw [List.range_eq_range']
  apply hVisits.congr
  intro indices hIndices
  symm
  exact nextCombination_eq hn (mem_inOrder.mp hIndices).2

/- The loop keeps the greatest value of what is visited. -/
theorem bestFrom_eq
    (cards : List Card)
    (rounds : Nat)
    (indices : List Nat)
    (best : HandValue) :
    bestFrom cards rounds indices best =
      ((visited (nextCombination cards.length) rounds
        indices).map fun chosen =>
          evaluateFive (chosen.map fun i =>
            cards.getD i default)).foldl better best := by
  induction rounds generalizing indices best with
  | zero => rfl
  | succ rounds ih =>
      unfold bestFrom visited
      cases hNext : nextCombination cards.length indices with
      | none => rfl
      | some next =>
          dsimp only
          rw [ih, List.map_cons, List.foldl_cons]
          rfl

/- The entries at all places are the list. -/
theorem map_getD_range
    {α : Type}
    (l : List α)
    (d : α) :
    ((List.range l.length).map fun i => l.getD i d) = l := by
  apply List.ext_getElem
  · rw [List.length_map, List.length_range]
  · intro i hLeft hRight
    rw [List.getElem_map, List.getElem_range,
      List.getD_eq_getElem?_getD,
      List.getElem?_eq_getElem hRight]
    rfl

/- All choices of five are gone through. -/
theorem evaluateBest_eq
    {cards : List Card}
    (hFive : 5 ≤ cards.length) :
    evaluateBest cards =
      ((inOrder 5 cards).map evaluateFive).foldl
        better {} := by
  have hRounds : (inOrder 5 (List.range cards.length)).length ≤
      cards.length.choose 5 := by
    rw [length_inOrder, List.length_range]
  have hHands := inOrder_map
    (fun i => cards.getD i default) 5
    (List.range cards.length)
  rw [map_getD_range] at hHands
  unfold evaluateBest
  rw [if_neg (by omega), bestFrom_eq,
    visited_of_visits (nextCombination_visits hFive) hRounds,
    hHands, List.map_map]
  rfl

/- It is the value of five of the cards, and the greatest. -/
theorem evaluateBest_isMax
    {cards : List Card}
    (hFive : 5 ≤ cards.length) :
    (∀ five : List Card,
      five.Sublist cards →
      five.length = 5 →
        evaluateFive five ≤ evaluateBest cards) ∧
      ∃ five : List Card,
        five.Sublist cards ∧
        five.length = 5 ∧
        evaluateFive five = evaluateBest cards := by
  rw [evaluateBest_eq hFive]
  have hLe := le_foldl_better
    ((inOrder 5 cards).map evaluateFive) {}
  have hAll : ∀ five : List Card,
      five.Sublist cards → five.length = 5 →
        evaluateFive five ≤
          ((inOrder 5 cards).map evaluateFive).foldl
            better {} := by
    intro five hSub hLength
    apply hLe.2
    exact List.mem_map_of_mem (mem_inOrder.mpr ⟨hSub, hLength⟩)
  refine ⟨hAll, ?_⟩
  rcases foldl_better_mem
    ((inOrder 5 cards).map evaluateFive) {} with hStart | hMem
  · -- Then the first five cards are worth no less.
    have hTake : (cards.take 5).length = 5 := by
      rw [List.length_take]
      omega
    have hFirst := hAll _ (List.take_sublist 5 cards) hTake
    refine ⟨cards.take 5, List.take_sublist 5 cards, hTake, ?_⟩
    apply HandValue.le_antisymm hFirst
    rw [hStart]
    exact default_le_evaluateFive hTake
  · rcases List.mem_map.mp hMem with ⟨five, hIn, hSame⟩
    rcases mem_inOrder.mp hIn with ⟨hSub, hLength⟩
    exact ⟨five, hSub, hLength, hSame⟩

/- More cards are worth no less. -/
theorem evaluateBest_mono
    {cards more : List Card}
    (hFive : 5 ≤ cards.length)
    (hSub : cards.Subperm more) :
    evaluateBest cards ≤ evaluateBest more := by
  rcases (evaluateBest_isMax hFive).2 with
    ⟨five, hCards, hLength, hBest⟩
  rcases hCards.subperm.trans hSub with ⟨chosen, hPerm, hMore⟩
  have hMoreFive : 5 ≤ more.length :=
    hFive.trans hSub.length_le
  have hChosen : chosen.length = 5 := by
    rw [hPerm.length_eq, hLength]
  have hLe := (evaluateBest_isMax hMoreFive).1 chosen hMore
    hChosen
  rw [evaluateFive_perm hPerm, hBest] at hLe
  exact hLe

/-
  The stepper visits each choice of five places once; the
  result is the greatest value, whatever the order of the
  cards, and a further card does not lower it.
-/
theorem evaluateBest_greatest
    (cards : List Card)
    (hFive : 5 ≤ cards.length) :
    (∃ choices : List (List Nat),
      Visits (nextCombination cards.length)
        [0, 1, 2, 3, 4] choices ∧
      choices.Nodup ∧
      choices.length = cards.length.choose 5 ∧
      ∀ indices : List Nat,
        indices ∈ choices ↔
          indices.Sublist (List.range cards.length) ∧
            indices.length = 5) ∧
      ((∀ five : List Card,
        five.Sublist cards →
        five.length = 5 →
          evaluateFive five ≤ evaluateBest cards) ∧
        ∃ five : List Card,
          five.Sublist cards ∧
          five.length = 5 ∧
          evaluateFive five = evaluateBest cards) ∧
      (∀ others : List Card,
        others.Perm cards →
          evaluateBest others = evaluateBest cards) ∧
      ∀ card : Card,
        evaluateBest cards ≤ evaluateBest (card :: cards) := by
  refine ⟨?_, evaluateBest_isMax hFive, ?_, ?_⟩
  · refine ⟨inOrder 5 (List.range cards.length),
      nextCombination_visits hFive,
      nodup_inOrder 5 List.nodup_range, ?_, ?_⟩
    · rw [length_inOrder, List.length_range]
    · intro indices
      exact mem_inOrder
  · intro others hPerm
    have hOthers : 5 ≤ others.length := by
      rw [hPerm.length_eq]
      exact hFive
    apply HandValue.le_antisymm
    · exact evaluateBest_mono hOthers hPerm.subperm
    · exact evaluateBest_mono hFive hPerm.symm.subperm
  · intro card
    apply evaluateBest_mono hFive
    exact (List.sublist_cons_self card cards).subperm

/- Among six cards the best five make a straight. -/
theorem evaluateBest_greatest_six :
    evaluateFive
        [⟨.clubs, .two⟩, ⟨.hearts, .three⟩, ⟨.clubs, .four⟩,
          ⟨.spades, .five⟩, ⟨.clubs, .six⟩] ≤
      evaluateBest
        [⟨.clubs, .two⟩, ⟨.hearts, .three⟩, ⟨.clubs, .four⟩,
          ⟨.clubs, .king⟩, ⟨.spades, .five⟩,
          ⟨.clubs, .six⟩] := by
  apply (evaluateBest_greatest
    [⟨.clubs, .two⟩, ⟨.hearts, .three⟩, ⟨.clubs, .four⟩,
      ⟨.clubs, .king⟩, ⟨.spades, .five⟩, ⟨.clubs, .six⟩]
    (by decide)).2.1.1
  · decide
  · rfl

end Poker
