import AsciiPoker.Common.Card
import Mathlib.Data.List.Sort
import Mathlib.Data.Nat.Choose.Basic

/-
  The hand evaluator (`hand_evaluator.h`,
  `hand_evaluator.cpp`).

  Card values run from 2 to 14, the ace high.  A hand value
  is compared the way the defaulted `<=>` compares it: by
  category, then by the five tiebreakers in order.

  Main declarations:
    * `HandCategory`, `HandValue`
    * `evaluateFiveValues`, `evaluateFive`
    * `nextCombination`, `evaluateBest`
    * `handCategoryLabel`
-/

------------------------------------------------------------
-- Hand Values
------------------------------------------------------------

namespace Poker

inductive HandCategory
  | highCard
  | onePair
  | twoPair
  | threeOfKind
  | straight
  | flush
  | fullHouse
  | fourOfKind
  | straightFlush
  deriving DecidableEq, Repr

/- The underlying value of the enumeration. -/
def HandCategory.toNat : HandCategory → Nat
| .highCard => 0
| .onePair => 1
| .twoPair => 2
| .threeOfKind => 3
| .straight => 4
| .flush => 5
| .fullHouse => 6
| .fourOfKind => 7
| .straightFlush => 8

/- A value holds as many tiebreakers as `std::array` does. -/
structure HandValue where
  category : HandCategory := .highCard
  tiebreakers : List Nat := [0, 0, 0, 0, 0]
  deriving DecidableEq, Repr

namespace HandValue

/- What `<=>` compares, the more significant part first. -/
def key
    (value : HandValue) : List Nat :=
  value.category.toNat :: value.tiebreakers

instance : LT HandValue :=
  ⟨fun left right => left.key < right.key⟩

instance
    (left right : HandValue) :
    Decidable (left < right) :=
  inferInstanceAs (Decidable (left.key < right.key))

end HandValue

/- `rank_value`. -/
def rankValue
    (rank : Rank) : Nat :=
  rank.toNat + 2

/- `hand_category_label`. -/
def handCategoryLabel : HandCategory → String
| .highCard => "High card"
| .onePair => "Pair"
| .twoPair => "Two pair"
| .threeOfKind => "Three of a kind"
| .straight => "Straight"
| .flush => "Flush"
| .fullHouse => "Full house"
| .fourOfKind => "Four of a kind"
| .straightFlush => "Straight flush"

------------------------------------------------------------
-- Five Cards
------------------------------------------------------------

/- The card values in the order the loops visit them. -/
def valuesDown : List Nat :=
  [14, 13, 12, 11, 10, 9, 8, 7, 6, 5, 4, 3, 2]

/- `is_straight`: the high card of a straight. -/
def isStraight
    (values : List Nat) : Option Nat :=
  let sorted := values.insertionSort (· ≤ ·)
  if (List.range 4).all fun i =>
      sorted.getD (i + 1) 0 == sorted.getD i 0 + 1 then
    some (sorted.getD 4 0)
  else if sorted = [2, 3, 4, 5, 14] then
    some 5
  else
    none

/- The first value that occurs `times` times, or zero. -/
def valueOccurring
    (values : List Nat)
    (times : Nat) : Nat :=
  (valuesDown.find? fun v =>
    values.count v == times).getD 0

/- An array of five entries, filled up with zeros. -/
def tiebreakersOf
    (entries : List Nat) : List Nat :=
  entries ++ List.replicate (5 - entries.length) 0

/- `evaluate_five_values`. -/
def evaluateFiveValues
    (values : List Nat)
    (flush : Bool) : HandValue :=
  let values := values.insertionSort (· ≥ ·)
  let straight := isStraight values
  let four := valueOccurring values 4
  let trip := valueOccurring values 3
  let pair := valueOccurring values 2
  let pairs := (valuesDown.filter fun v =>
    values.count v == 2).take 2
  if flush && straight.isSome then
    ⟨.straightFlush, tiebreakersOf [straight.getD 0]⟩
  else if four ≠ 0 then
    ⟨.fourOfKind,
      tiebreakersOf [four, valueOccurring values 1]⟩
  else if trip ≠ 0 ∧ pair ≠ 0 then
    ⟨.fullHouse, tiebreakersOf [trip, pair]⟩
  else if flush then
    ⟨.flush, values⟩
  else if straight.isSome then
    ⟨.straight, tiebreakersOf [straight.getD 0]⟩
  else if trip ≠ 0 then
    ⟨.threeOfKind, tiebreakersOf (trip ::
      (values.filter fun v => v ≠ trip).take 2)⟩
  else if pairs.length = 2 then
    ⟨.twoPair, tiebreakersOf (pairs ++
      (values.filter fun v => v ∉ pairs).take 1)⟩
  else if pairs.length = 1 then
    ⟨.onePair, tiebreakersOf (pairs ++
      (values.filter fun v => v ∉ pairs).take 3)⟩
  else
    ⟨.highCard, values⟩

/- `evaluate_five`. -/
def evaluateFive
    (cards : List Card) : HandValue :=
  let suit := (cards.headD default).suit
  evaluateFiveValues
    (cards.map fun card => rankValue card.rank)
    (cards.all fun card => card.suit = suit)

------------------------------------------------------------
-- The Best Five of Many
------------------------------------------------------------

/-
  The lambda `next_combination` of `evaluate_best`: bump the
  last index that can still grow and reset those after it.
-/
def nextCombination
    (n : Nat)
    (indices : List Nat) : Option (List Nat) :=
  ([4, 3, 2, 1, 0].find? fun i =>
    indices.getD i 0 ≠ i + n - 5).map fun i =>
      indices.take i ++
        (List.range (5 - i)).map fun j =>
          indices.getD i 0 + 1 + j

/- The `do … while` loop over the index combinations. -/
def bestFrom
    (cards : List Card) :
    Nat → List Nat → HandValue → HandValue
| 0, _, best => best
| rounds + 1, indices, best =>
    let value := evaluateFive
      (indices.map fun i => cards.getD i default)
    let best := if best < value then value else best
    match nextCombination cards.length indices with
    | some next => bestFrom cards rounds next best
    | none => best

/-
  `evaluate_best`.  There are as many rounds as there are
  ways to choose five of the cards.
-/
def evaluateBest
    (cards : List Card) : HandValue :=
  if cards.length < 5 then
    {}
  else
    bestFrom cards (cards.length.choose 5)
      [0, 1, 2, 3, 4] {}

/- A wheel is a straight whose high card is the five. -/
example :
    evaluateFiveValues [14, 3, 2, 5, 4] false =
      ⟨.straight, [5, 0, 0, 0, 0]⟩ := by
  decide

end Poker
