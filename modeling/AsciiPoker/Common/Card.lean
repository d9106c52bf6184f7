import Mathlib.Data.List.Perm.Basic
import Mathlib.Data.List.Rotate

/-
  Playing cards and the deck (`card.h`, `deck.h`,
  `deck.cpp`).

  A deck is the vector of its cards, last card on top.
  `std::shuffle` is known to permute; a `Shuffle` is any
  permutation of a fresh deck.

  Main declarations:
    * `Suit`, `Rank`, `Card`, `Card.toString`
    * `Deck.fresh`, `Deck.deal`
    * `Shuffle`
-/

------------------------------------------------------------
-- Cards
------------------------------------------------------------

namespace Poker

inductive Suit
  | clubs
  | diamonds
  | hearts
  | spades
  deriving DecidableEq, Repr

inductive Rank
  | two
  | three
  | four
  | five
  | six
  | seven
  | eight
  | nine
  | ten
  | jack
  | queen
  | king
  | ace
  deriving DecidableEq, Repr

namespace Suit

/- The entry of `SUIT_SYMBOLS`. -/
def symbol : Suit → String
| .clubs => "C"
| .diamonds => "D"
| .hearts => "H"
| .spades => "S"

/- The suits in the order of their underlying values. -/
def all : List Suit :=
  [.clubs, .diamonds, .hearts, .spades]

end Suit

namespace Rank

/- The entry of `RANK_SYMBOLS`. -/
def symbol : Rank → String
| .two => "2"
| .three => "3"
| .four => "4"
| .five => "5"
| .six => "6"
| .seven => "7"
| .eight => "8"
| .nine => "9"
| .ten => "10"
| .jack => "J"
| .queen => "Q"
| .king => "K"
| .ace => "A"

/- The underlying value of the enumeration. -/
def toNat : Rank → Nat
| .two => 0
| .three => 1
| .four => 2
| .five => 3
| .six => 4
| .seven => 5
| .eight => 6
| .nine => 7
| .ten => 8
| .jack => 9
| .queen => 10
| .king => 11
| .ace => 12

/- The ranks in the order of their underlying values. -/
def all : List Rank :=
  [.two, .three, .four, .five, .six, .seven, .eight,
    .nine, .ten, .jack, .queen, .king, .ace]

end Rank

structure Card where
  suit : Suit
  rank : Rank
  deriving DecidableEq, Repr

instance : Inhabited Card := ⟨⟨.clubs, .two⟩⟩

/- `Card::to_string`: the rank symbol, then the suit's. -/
def Card.toString
    (card : Card) : String :=
  card.rank.symbol ++ card.suit.symbol

------------------------------------------------------------
-- Decks
------------------------------------------------------------

namespace Deck

/- The cards of a new deck, suit by suit. -/
def fresh : List Card :=
  Suit.all.flatMap fun suit =>
    Rank.all.map fun rank => ⟨suit, rank⟩

/-
  `Deck::deal`: take `count` cards off the end of the
  vector, the last one first.  `none` is the
  `std::out_of_range` of a deck that holds too few.
-/
def deal
    (cards : List Card)
    (count : Nat) : Option (List Card × List Card) :=
  if cards.length < count then
    none
  else
    let kept := cards.length - count
    some ((cards.drop kept).reverse, cards.take kept)

/- The dealt cards and the rest are the deck. -/
theorem deal_eq_some
    {cards dealt rest : List Card}
    {count : Nat}
    (hDeal : deal cards count = some (dealt, rest)) :
    cards = rest ++ dealt.reverse ∧
      dealt.length = count := by
  unfold deal at hDeal
  by_cases hFew : cards.length < count
  · simp [hFew] at hDeal
  · simp only [hFew, if_false, Option.some.injEq,
      Prod.mk.injEq] at hDeal
    rcases hDeal with ⟨rfl, rfl⟩
    refine ⟨?_, ?_⟩
    · rw [List.reverse_reverse, List.take_append_drop]
    · simp only [List.length_reverse, List.length_drop]
      omega

/- A deck deals as many cards as it holds, and no more. -/
theorem deal_isSome_iff
    {cards : List Card}
    {count : Nat} :
    (deal cards count).isSome ↔ count ≤ cards.length := by
  unfold deal
  by_cases hFew : cards.length < count
  · simp [hFew]
  · simp [hFew]
    omega

end Deck

/- What `Deck::shuffle` leaves: a fresh deck, permuted. -/
structure Shuffle where
  cards : List Card
  perm : cards.Perm Deck.fresh

/- The shuffle that leaves every card in its place. -/
def Shuffle.unshuffled : Shuffle where
  cards := Deck.fresh
  perm := List.Perm.refl _

/- The shuffle that cuts the deck after `count` cards. -/
def Shuffle.cut
    (count : Nat) : Shuffle where
  cards := Deck.fresh.rotate count
  perm := List.rotate_perm _ _

end Poker
