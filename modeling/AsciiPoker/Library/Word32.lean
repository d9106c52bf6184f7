import Mathlib.Algebra.Order.BigOperators.Group.List
import Mathlib.Algebra.Order.Ring.Nat
import Mathlib.Tactic.Common

/-
  Unsigned words: 32-bit arithmetic read as arithmetic on
  naturals, and integers reduced to words.

  Main declarations:
    * `UInt32.toNat_add_of_lt`, `UInt32.toNat_sub_add_toNat`
    * `UInt32.toNat_foldl_add`
    * `UInt8.toNat_ofInt`, `UInt32.toNat_ofInt`,
      `UInt64.toNat_ofInt`
-/

------------------------------------------------------------
-- Operations
------------------------------------------------------------

namespace UInt32

/- A sum below the word size does not wrap. -/
theorem toNat_add_of_lt
    {a b : UInt32}
    (hLt : a.toNat + b.toNat < 2 ^ 32) :
    (a + b).toNat = a.toNat + b.toNat := by
  rw [UInt32.toNat_add, Nat.mod_eq_of_lt hLt]

/- A sum, wrapped or not, is at most the sum. -/
theorem toNat_add_le
    (a b : UInt32) :
    (a + b).toNat ≤ a.toNat + b.toNat := by
  rw [UInt32.toNat_add]
  exact Nat.mod_le _ _

/- A difference that does not wrap, put back. -/
theorem toNat_sub_add_toNat
    {a b : UInt32}
    (hLe : b ≤ a) :
    (a - b).toNat + b.toNat = a.toNat := by
  have hNat := UInt32.le_iff_toNat_le.mp hLe
  rw [UInt32.toNat_sub_of_le _ _ hLe]
  omega

/- Only equal words have no difference. -/
theorem sub_eq_zero_iff_eq
    {a b : UInt32} :
    a - b = 0 ↔ a = b := by
  constructor
  · intro hZero
    rw [← UInt32.sub_add_cancel a b, hZero, UInt32.zero_add]
  · intro hEq
    rw [hEq, UInt32.sub_self]

theorem toNat_eq_zero_iff
    (a : UInt32) :
    a.toNat = 0 ↔ a = 0 := by
  constructor
  · intro h
    exact UInt32.toNat_inj.mp h
  · intro h
    rw [h]
    rfl

theorem pos_iff_toNat_pos
    (a : UInt32) :
    0 < a ↔ 0 < a.toNat :=
  UInt32.lt_iff_toNat_lt

------------------------------------------------------------
-- Sums
------------------------------------------------------------

/- A running sum is at most the sum of what is added. -/
theorem toNat_foldl_add_le
    {α : Type}
    (f : α → UInt32)
    (xs : List α)
    (start : UInt32) :
    (xs.foldl (fun sum x => sum + f x) start).toNat ≤
      start.toNat + (xs.map fun x => (f x).toNat).sum := by
  induction xs generalizing start with
  | nil => simp
  | cons x xs ih =>
      have hHead := toNat_add_le start (f x)
      have hRest := ih (start + f x)
      simp only [List.foldl_cons, List.map_cons,
        List.sum_cons]
      omega

/- A running sum below the word size is the sum. -/
theorem toNat_foldl_add
    {α : Type}
    (f : α → UInt32)
    (xs : List α)
    (start : UInt32)
    (hLt :
      start.toNat + (xs.map fun x => (f x).toNat).sum <
        2 ^ 32) :
    (xs.foldl (fun sum x => sum + f x) start).toNat =
      start.toNat + (xs.map fun x => (f x).toNat).sum := by
  induction xs generalizing start with
  | nil => simp
  | cons x xs ih =>
      simp only [List.map_cons, List.sum_cons] at hLt
      have hHead : (start + f x).toNat =
          start.toNat + (f x).toNat :=
        toNat_add_of_lt (by omega)
      have hRest := ih (start + f x) (by omega)
      simp only [List.foldl_cons, List.map_cons,
        List.sum_cons]
      omega

end UInt32

------------------------------------------------------------
-- Integers Reduced to 8 Bits
------------------------------------------------------------

namespace UInt8

/- The word of an integer is its residue. -/
theorem toNat_ofInt
    (z : Int) :
    ((UInt8.ofInt z).toNat : Int) = z % 2 ^ 8 := by
  unfold UInt8.ofInt
  rw [UInt8.toNat_ofNat']
  have hNonneg :=
    Int.emod_nonneg z (show (2 ^ 8 : Int) ≠ 0 by decide)
  have hLt :=
    Int.emod_lt_of_pos z (show (0 : Int) < 2 ^ 8 by decide)
  omega

/- The word of a word's own value is the word. -/
@[simp] theorem ofInt_toNat
    (a : UInt8) :
    UInt8.ofInt a.toNat = a := by
  apply UInt8.toNat_inj.mp
  have hResidue := toNat_ofInt a.toNat
  have hLt := a.toNat_lt
  omega

end UInt8

------------------------------------------------------------
-- Integers Reduced to 32 Bits
------------------------------------------------------------

namespace UInt32

/- The word of an integer is its residue. -/
theorem toNat_ofInt
    (z : Int) :
    ((UInt32.ofInt z).toNat : Int) = z % 2 ^ 32 := by
  unfold UInt32.ofInt
  rw [UInt32.toNat_ofNat']
  have hNonneg :=
    Int.emod_nonneg z (show (2 ^ 32 : Int) ≠ 0 by decide)
  have hLt :=
    Int.emod_lt_of_pos z (show (0 : Int) < 2 ^ 32 by decide)
  omega

/- The word of a word's own value is the word. -/
@[simp] theorem ofInt_toNat
    (a : UInt32) :
    UInt32.ofInt a.toNat = a := by
  apply UInt32.toNat_inj.mp
  have hResidue := toNat_ofInt a.toNat
  have hLt := a.toNat_lt
  omega

end UInt32

------------------------------------------------------------
-- Integers Reduced to 64 Bits
------------------------------------------------------------

namespace UInt64

/- The word of an integer is its residue. -/
theorem toNat_ofInt
    (z : Int) :
    ((UInt64.ofInt z).toNat : Int) = z % 2 ^ 64 := by
  unfold UInt64.ofInt
  rw [UInt64.toNat_ofNat']
  have hNonneg :=
    Int.emod_nonneg z (show (2 ^ 64 : Int) ≠ 0 by decide)
  have hLt :=
    Int.emod_lt_of_pos z (show (0 : Int) < 2 ^ 64 by decide)
  omega

/- The word of a word's own value is the word. -/
@[simp] theorem ofInt_toNat
    (a : UInt64) :
    UInt64.ofInt a.toNat = a := by
  apply UInt64.toNat_inj.mp
  have hResidue := toNat_ofInt a.toNat
  have hLt := a.toNat_lt
  omega

end UInt64
