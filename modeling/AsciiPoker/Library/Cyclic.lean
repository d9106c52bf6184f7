import Mathlib.Data.List.Basic

/-
  Going round a circle of places.

  Main declarations:
    * `Cyclic.wait`
    * `Cyclic.wait_le`, `Cyclic.not_here_of_lt`,
      `Cyclic.wait_eq_size`, `Cyclic.add_mod_ne`
    * `Cyclic.wait_succ`, `Cyclic.wait_advance`
-/

namespace Cyclic

variable {size start : Nat}
variable {Here : Nat → Prop}
variable [DecidablePred Here]

/-
  How many places to go on from `start` until the first one
  of a kind; `size` when there is none.
-/
def wait
    (size start : Nat)
    (Here : Nat → Prop)
    [DecidablePred Here] : Nat :=
  (List.range size).findIdx fun k =>
    decide (Here ((start + k) % size))

/- The wait is no longer than the way to any such place. -/
theorem wait_le
    {k : Nat}
    (hHere : Here ((start + k) % size)) :
    wait size start Here ≤ k := by
  unfold wait
  by_contra hNot
  have hBefore := List.not_of_lt_findIdx
    (Nat.lt_of_not_le hNot)
  simp only [List.getElem_range, decide_eq_false_iff_not]
    at hBefore
  exact hBefore hHere

/- Nothing of the kind is passed while one waits. -/
theorem not_here_of_lt
    {k : Nat}
    (hLt : k < wait size start Here) :
    ¬ Here ((start + k) % size) :=
  fun hHere => Nat.not_lt.mpr (wait_le hHere) hLt

/- Going on by less than a round does not lead back. -/
theorem add_mod_ne
    {steps : Nat}
    (hStart : start < size)
    (hPos : 0 < steps)
    (hLess : steps < size) :
    (start + steps) % size ≠ start := by
  intro hSame
  by_cases hFits : start + steps < size
  · rw [Nat.mod_eq_of_lt hFits] at hSame
    omega
  · rw [Nat.mod_eq_sub_mod (by omega),
      Nat.mod_eq_of_lt (by omega)] at hSame
    omega

/- A wait that comes to an end ends at such a place. -/
theorem here_of_wait_lt
    (hLt : wait size start Here < size) :
    Here ((start + wait size start Here) % size) := by
  have hIdx : (List.range size).findIdx
      (fun k => decide (Here ((start + k) % size))) <
        (List.range size).length := by
    rw [List.length_range]
    exact hLt
  have hGet := List.findIdx_getElem (w := hIdx)
  simpa [wait] using hGet

/- Without such a place one waits for a whole round. -/
theorem wait_eq_size
    (hNone : ∀ i, i < size → ¬ Here i) :
    wait size start Here = size := by
  unfold wait
  rw [List.findIdx_eq_length_of_false]
  · rw [List.length_range]
  · intro k hk
    have hLt := List.mem_range.mp hk
    have hPos : 0 < size := Nat.zero_lt_of_lt hLt
    simpa using hNone _ (Nat.mod_lt (start + k) hPos)

/- Where there is such a place, one waits less than a round. -/
theorem wait_lt
    {i : Nat}
    (hLt : i < size)
    (hHere : Here i) :
    wait size start Here < size := by
  have hPos : 0 < size := Nat.zero_lt_of_lt hLt
  let k := (i + (size - start % size)) % size
  have hMod : (start + k) % size = i := by
    have hStart := Nat.mod_lt start hPos
    have hSum : (start + (i + (size - start % size))) % size =
        i := by
      have hSplit := Nat.div_add_mod start size
      have hEq : start + (i + (size - start % size)) =
          i + size * (start / size + 1) := by
        rw [Nat.mul_add, Nat.mul_one]
        omega
      rw [hEq, Nat.add_mul_mod_self_left]
      exact Nat.mod_eq_of_lt hLt
    change (start + (i + (size - start % size)) % size) %
      size = i
    rw [Nat.add_mod_mod]
    exact hSum
  have hK : k < size := Nat.mod_lt _ hPos
  exact Nat.lt_of_le_of_lt
    (wait_le (by rw [hMod]; exact hHere)) hK

/- From the next place on, one waits for one place less. -/
theorem wait_succ
    (hLt : wait size start Here < size)
    (hNot : ¬ Here (start % size)) :
    wait size ((start + 1) % size) Here + 1 =
      wait size start Here := by
  have hHere := here_of_wait_lt hLt
  have hPos : 0 < wait size start Here := by
    by_contra hZero
    rw [Nat.eq_zero_of_not_pos hZero, Nat.add_zero] at hHere
    exact hNot hHere
  have hNext : Here (((start + 1) % size +
      (wait size start Here - 1)) % size) := by
    rw [Nat.mod_add_mod]
    have hSum : start + 1 + (wait size start Here - 1) =
        start + wait size start Here := by
      omega
    rw [hSum]
    exact hHere
  have hShort := wait_le hNext
  have hThere := here_of_wait_lt
    (Nat.lt_of_le_of_lt hShort (by omega))
  rw [Nat.mod_add_mod] at hThere
  have hSum : start + 1 +
      wait size ((start + 1) % size) Here =
        start + (wait size ((start + 1) % size) Here + 1) := by
    omega
  rw [hSum] at hThere
  have hLong := wait_le hThere
  omega

/-
  Going on by fewer places than one has to wait shortens the
  wait.
-/
theorem wait_advance
    {steps : Nat}
    (hLt : wait size start Here < size)
    (hLe : steps + 1 ≤ wait size start Here) :
    wait size ((start + 1 + steps) % size) Here <
      wait size start Here := by
  have hHere := here_of_wait_lt hLt
  have hRest : Here (((start + 1 + steps) % size +
      (wait size start Here - (steps + 1))) % size) := by
    rw [Nat.mod_add_mod]
    have hSum : start + 1 + steps +
        (wait size start Here - (steps + 1)) =
          start + wait size start Here := by
      omega
    rw [hSum]
    exact hHere
  have hWait := wait_le
    (k := wait size start Here - (steps + 1)) hRest
  omega

end Cyclic
