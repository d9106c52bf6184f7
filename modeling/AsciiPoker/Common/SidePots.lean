import Mathlib.Data.List.Basic

/-
  Side pots (`side_pots.h`, `side_pots.cpp`).

  Main declarations:
    * `PotPlayerState`, `SidePot`
    * `SidePots.minBet`, `SidePots.layerAmount`,
      `SidePots.takeLayer`
    * `computeSidePots`
-/

namespace Poker

/- `std::numeric_limits<uint32_t>::max()`. -/
def uint32Max : UInt32 := 4294967295

structure PotPlayerState where
  contributed : UInt32 := 0
  folded : Bool := false
  deriving DecidableEq, Repr

structure SidePot where
  amount : UInt32 := 0
  eligiblePlayerIndices : List Nat
  deriving DecidableEq, Repr

namespace SidePots

/- Read one entry of the vector `remaining`. -/
def entry
    (remaining : List UInt32)
    (index : Nat) : UInt32 :=
  remaining.getD index 0

/-
  The least positive remainder of an eligible player;
  `uint32Max` when no eligible player has any left.
-/
def minBet
    (remaining : List UInt32)
    (eligible : List Nat) : UInt32 :=
  eligible.foldl
    (fun least index =>
      if 0 < entry remaining index then
        min least (entry remaining index)
      else
        least)
    uint32Max

/- What one layer of height `bet` takes from everybody. -/
def layerAmount
    (remaining : List UInt32)
    (bet : UInt32) : UInt32 :=
  remaining.foldl
    (fun amount r =>
      if r = 0 then amount else amount + min r bet)
    0

/- What one layer of height `bet` leaves to everybody. -/
def takeLayer
    (remaining : List UInt32)
    (bet : UInt32) : List UInt32 :=
  remaining.map fun r =>
    if r = 0 then r else r - min r bet

/-
  The `while` loop.  Each round drops an eligible player, so
  as many rounds as there are eligible players suffice.
-/
def loop :
    Nat → List UInt32 → List Nat → List SidePot
| 0, _, _ => []
| rounds + 1, remaining, eligible =>
    if eligible.isEmpty then
      []
    else
      let bet := minBet remaining eligible
      if bet = uint32Max then
        []
      else
        let left := takeLayer remaining bet
        { amount := layerAmount remaining bet
          eligiblePlayerIndices := eligible } ::
          loop rounds left
            (eligible.filter fun index =>
              entry left index ≠ 0)

/- The indices of the players still in the hand. -/
def unfolded
    (players : List PotPlayerState) : List Nat :=
  (List.range players.length).filter fun i =>
    !(players.getD i {}).folded

end SidePots

/- `compute_side_pots`. -/
def computeSidePots
    (players : List PotPlayerState) : List SidePot :=
  let eligible := SidePots.unfolded players
  SidePots.loop eligible.length
    (players.map PotPlayerState.contributed) eligible

/- A folded excess over the last layer is in no pot. -/
example :
    computeSidePots [⟨100, true⟩, ⟨50, false⟩] =
      [⟨100, [1]⟩] := by
  decide

end Poker
