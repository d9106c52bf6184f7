import AsciiPoker.Common.HandBest

/-
  The standard order of poker hands.

  A hand is of the highest category whose description it
  meets; the descriptions speak of a common suit, of
  consecutive ranks and of how often each rank occurs.
  Within a category straights compare by their top, and all
  others by their ranks, those that occur more often first
  and among these the higher ones first.

  Main declarations:
    * `Ranking.groups`, `Ranking.shape`, `Ranking.Straight`
    * `Ranking.Meets`, `Ranking.category`, `Ranking.deciders`
    * `Ranking.compareHands`
-/

namespace Poker

/- Entry by entry, until two of them differ. -/
def compareEntries : List Nat → List Nat → Ordering
| left :: lefts, right :: rights =>
    (compare left right).then (compareEntries lefts rights)
| _, _ => .eq

namespace Ranking

------------------------------------------------------------
-- Ranks and How Often They Occur
------------------------------------------------------------

/- The ranks of a hand, the ace high. -/
def ranks
    (hand : List Card) : List Nat :=
  hand.map fun card => rankValue card.rank

/- The more frequent rank comes first, then the higher one. -/
def Precedes
    (values : List Nat)
    (v w : Nat) : Prop :=
  values.count w < values.count v ∨
    values.count w = values.count v ∧ w ≤ v

instance
    (values : List Nat)
    (v w : Nat) :
    Decidable (Precedes values v w) :=
  inferInstanceAs (Decidable (_ ∨ _))

/- The ranks that occur. -/
def groups
    (values : List Nat) : List Nat :=
  values.dedup.insertionSort (Precedes values)

/- How often they occur. -/
def shape
    (values : List Nat) : List Nat :=
  (groups values).map values.count

/- Five consecutive ranks; below the two, the ace is low. -/
def Straight
    (values : List Nat)
    (top : Nat) : Prop :=
  values.Perm [top, top - 1, top - 2, top - 3, top - 4] ∨
    top = 5 ∧ values.Perm [5, 4, 3, 2, 14]

instance
    (values : List Nat)
    (top : Nat) :
    Decidable (Straight values top) :=
  inferInstanceAs (Decidable (_ ∨ _))

def straightTop
    (values : List Nat) : Option Nat :=
  (List.range 15).find? fun top => Straight values top

instance
    (hand : List Card) :
    Decidable (SameSuit hand) :=
  inferInstanceAs (Decidable (∀ c ∈ hand, ∀ d ∈ hand, _))

------------------------------------------------------------
-- Categories
------------------------------------------------------------

/- What a hand of a category looks like. -/
def Meets
    (hand : List Card) : HandCategory → Prop
| .straightFlush =>
    SameSuit hand ∧ (straightTop (ranks hand)).isSome
| .fourOfKind => shape (ranks hand) = [4, 1]
| .fullHouse => shape (ranks hand) = [3, 2]
| .flush => SameSuit hand
| .straight => (straightTop (ranks hand)).isSome
| .threeOfKind => shape (ranks hand) = [3, 1, 1]
| .twoPair => shape (ranks hand) = [2, 2, 1]
| .onePair => shape (ranks hand) = [2, 1, 1, 1]
| .highCard => True

instance
    (hand : List Card) :
    (category : HandCategory) →
      Decidable (Meets hand category)
| .straightFlush => inferInstanceAs (Decidable (_ ∧ _))
| .fourOfKind => inferInstanceAs (Decidable (_ = _))
| .fullHouse => inferInstanceAs (Decidable (_ = _))
| .flush => inferInstanceAs (Decidable (SameSuit hand))
| .straight => inferInstanceAs (Decidable (_ = true))
| .threeOfKind => inferInstanceAs (Decidable (_ = _))
| .twoPair => inferInstanceAs (Decidable (_ = _))
| .onePair => inferInstanceAs (Decidable (_ = _))
| .highCard => isTrue trivial

/- The categories, the highest first. -/
def categories : List HandCategory :=
  [.straightFlush, .fourOfKind, .fullHouse, .flush,
    .straight, .threeOfKind, .twoPair, .onePair, .highCard]

/- The highest category whose description is met. -/
def category
    (hand : List Card) : HandCategory :=
  (categories.find? fun category =>
    Meets hand category).getD .highCard

/- What decides between two hands of one category. -/
def deciders
    (hand : List Card) : List Nat :=
  match straightTop (ranks hand) with
  | some top => [top]
  | none => groups (ranks hand)

/- The standard order. -/
def compareHands
    (left right : List Card) : Ordering :=
  (compare (category left).toNat
      (category right).toNat).then
    (compareEntries (deciders left) (deciders right))

/- Queens full beat a flush. -/
example :
    compareHands
        [⟨.clubs, .queen⟩, ⟨.hearts, .queen⟩,
          ⟨.spades, .queen⟩, ⟨.clubs, .two⟩, ⟨.hearts, .two⟩]
        [⟨.clubs, .ace⟩, ⟨.clubs, .king⟩, ⟨.clubs, .nine⟩,
          ⟨.clubs, .three⟩, ⟨.clubs, .two⟩] = .gt := by
  decide

end Ranking

end Poker
