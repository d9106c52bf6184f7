import Mathlib.Algebra.Order.BigOperators.Group.List
import Mathlib.Algebra.Order.Ring.Nat
import Mathlib.Data.Finset.Sort

/-
  Piles cut into layers: what a list of piles holds below a
  height, what is left above it, and the heights at which
  the piles end.

  Main declarations:
    * `Layers.below`, `Layers.above`, `Layers.between`
    * `Layers.below_add`, `Layers.below_add_sum_above`
    * `Layers.below_eq_sum_iff`
    * `Layers.levels`, `Layers.level`, `Layers.levels_cut`
-/

namespace Layers

/- What the piles hold below a height. -/
def below
    (height : Nat)
    (piles : List Nat) : Nat :=
  (piles.map fun pile => min pile height).sum

/- The piles with everything below a height taken away. -/
def above
    (height : Nat)
    (piles : List Nat) : List Nat :=
  piles.map fun pile => pile - height

@[simp] theorem below_nil
    (height : Nat) :
    below height [] = 0 := rfl

@[simp] theorem below_cons
    (height pile : Nat)
    (piles : List Nat) :
    below height (pile :: piles) =
      min pile height + below height piles := by
  simp [below]

@[simp] theorem above_nil
    (height : Nat) :
    above height [] = [] := rfl

@[simp] theorem above_cons
    (height pile : Nat)
    (piles : List Nat) :
    above height (pile :: piles) =
      (pile - height) :: above height piles := rfl

@[simp] theorem below_zero
    (piles : List Nat) :
    below 0 piles = 0 := by
  induction piles with
  | nil => rfl
  | cons pile piles ih => simp [ih]

/- Two layers on top of one another are one layer. -/
theorem below_add
    (low high : Nat)
    (piles : List Nat) :
    below (low + high) piles =
      below low piles + below high (above low piles) := by
  induction piles with
  | nil => rfl
  | cons pile piles ih =>
      simp only [below_cons, above_cons, ih]
      omega

/- A higher layer holds at least as much. -/
theorem below_mono
    {low high : Nat}
    (piles : List Nat)
    (hLe : low ≤ high) :
    below low piles ≤ below high piles := by
  induction piles with
  | nil => exact Nat.le_refl _
  | cons pile piles ih =>
      simp only [below_cons]
      omega

/- What is not below a height is above it. -/
theorem below_add_sum_above
    (height : Nat)
    (piles : List Nat) :
    below height piles + (above height piles).sum =
      piles.sum := by
  induction piles with
  | nil => rfl
  | cons pile piles ih =>
      simp only [below_cons, above_cons, List.sum_cons]
      omega

/- A layer holds at most everything. -/
theorem below_le_sum
    (height : Nat)
    (piles : List Nat) :
    below height piles ≤ piles.sum := by
  have hSplit := below_add_sum_above height piles
  omega

/- A layer holds everything when no pile is above it. -/
theorem below_eq_sum_iff
    (height : Nat)
    (piles : List Nat) :
    below height piles = piles.sum ↔
      ∀ pile ∈ piles, pile ≤ height := by
  induction piles with
  | nil => simp
  | cons pile piles ih =>
      have hLe := below_le_sum height piles
      simp only [below_cons, List.sum_cons,
        List.forall_mem_cons, ← ih]
      omega

------------------------------------------------------------
-- Between Two Heights
------------------------------------------------------------

/- What the piles hold between two heights. -/
def between
    (low high : Nat)
    (piles : List Nat) : Nat :=
  (piles.map fun pile => min pile high - min pile low).sum

theorem between_zero
    (high : Nat)
    (piles : List Nat) :
    between 0 high piles = below high piles := by
  simp [between, below]

/- Two heights as they are seen from above a third. -/
theorem between_above
    (base low high : Nat)
    (piles : List Nat) :
    between low high (above base piles) =
      between (low + base) (high + base) piles := by
  unfold between above
  rw [List.map_map]
  congr 1
  apply List.map_congr_left
  intro pile _
  simp only [Function.comp_apply]
  omega

/- A pile that is high enough is cut. -/
theorem between_pos
    {low high pile : Nat}
    {piles : List Nat}
    (hMem : pile ∈ piles)
    (hHeights : low < high)
    (hPile : high ≤ pile) :
    0 < between low high piles := by
  have hPart : min pile high - min pile low ∈
      piles.map fun pile => min pile high - min pile low :=
    List.mem_map.mpr ⟨pile, hMem, rfl⟩
  have hLe := List.single_le_sum
    (fun _ _ => Nat.zero_le _) _ hPart
  unfold between
  omega

------------------------------------------------------------
-- Levels
------------------------------------------------------------

/- The heights at which piles end, in increasing order. -/
def levels
    (piles : List Nat) : List Nat :=
  (piles.toFinset.erase 0).sort

/- The ground is level 0. -/
def level
    (piles : List Nat)
    (k : Nat) : Nat :=
  (0 :: levels piles).getD k 0

theorem mem_levels
    {piles : List Nat}
    {height : Nat} :
    height ∈ levels piles ↔ 0 < height ∧ height ∈ piles := by
  simp [levels, Nat.pos_iff_ne_zero]

theorem levels_increasing
    (piles : List Nat) :
    (levels piles).Pairwise (· < ·) :=
  (Finset.sortedLT_sort _).pairwise

/- Levels depend on nothing but which piles there are. -/
theorem levels_congr
    {piles others : List Nat}
    (hSame : ∀ pile, 0 < pile →
      (pile ∈ piles ↔ pile ∈ others)) :
    levels piles = levels others := by
  apply List.Pairwise.eq_of_mem_iff
    (levels_increasing piles) (levels_increasing others)
  intro pile
  rw [mem_levels, mem_levels, and_congr_right_iff]
  exact hSame pile

/- Empty piles have no levels. -/
theorem levels_eq_nil
    {piles : List Nat}
    (hEmpty : ∀ pile ∈ piles, pile = 0) :
    levels piles = [] := by
  rw [List.eq_nil_iff_forall_not_mem]
  intro pile hPile
  rcases mem_levels.mp hPile with ⟨hPos, hMem⟩
  exact absurd (hEmpty pile hMem) (by omega)

/-
  Cut at the lowest level, what is left has the other
  levels.
-/
theorem levels_cut
    {piles : List Nat}
    {lowest : Nat}
    (hMem : lowest ∈ piles)
    (hPos : 0 < lowest)
    (hLeast : ∀ pile ∈ piles, 0 < pile → lowest ≤ pile) :
    levels piles =
      lowest ::
        (levels (above lowest piles)).map (· + lowest) := by
  apply List.Pairwise.eq_of_mem_iff (levels_increasing piles)
  · rw [List.pairwise_cons, List.pairwise_map]
    refine ⟨?_, ?_⟩
    · intro height hHeight
      rcases List.mem_map.mp hHeight with ⟨rest, hRest, rfl⟩
      have := (mem_levels.mp hRest).1
      omega
    · apply List.Pairwise.imp _ (levels_increasing _)
      intro a b hLt
      omega
  · intro height
    rw [List.mem_cons, List.mem_map, mem_levels]
    constructor
    · rintro ⟨hHeight, hPile⟩
      have hLe := hLeast height hPile hHeight
      rcases Nat.eq_or_lt_of_le hLe with hSame | hLt
      · exact Or.inl hSame.symm
      · refine Or.inr ⟨height - lowest, ?_, by omega⟩
        rw [mem_levels]
        exact ⟨by omega, List.mem_map.mpr ⟨height, hPile, rfl⟩⟩
    · rintro (rfl | ⟨rest, hRest, rfl⟩)
      · exact ⟨hPos, hMem⟩
      · rcases mem_levels.mp hRest with ⟨hRestPos, hAbove⟩
        rcases List.mem_map.mp hAbove with ⟨pile, hPile, rfl⟩
        have hSame : pile - lowest + lowest = pile := by omega
        rw [hSame]
        exact ⟨by omega, hPile⟩

theorem level_succ
    {piles : List Nat}
    {k height : Nat}
    (hAt : (levels piles)[k]? = some height) :
    level piles (k + 1) = height := by
  simp [level, hAt]

/- The lowest level is the ground of what is above it. -/
theorem level_cut
    {piles : List Nat}
    {lowest k : Nat}
    (hLevels : levels piles =
      lowest :: (levels (above lowest piles)).map (· + lowest))
    (hk : k ≤ (levels (above lowest piles)).length) :
    level piles (k + 1) =
      level (above lowest piles) k + lowest := by
  unfold level
  rw [hLevels]
  cases k with
  | zero => simp
  | succ k => simp [Nat.lt_of_succ_le hk]

/- Levels increase from the ground on. -/
theorem level_lt_level
    {piles : List Nat}
    {j k : Nat}
    (hLt : j < k)
    (hLast : k ≤ (levels piles).length) :
    level piles j < level piles k := by
  have hIncreasing : (0 :: levels piles).Pairwise (· < ·) := by
    rw [List.pairwise_cons]
    refine ⟨?_, levels_increasing piles⟩
    intro height hHeight
    exact (mem_levels.mp hHeight).1
  have hk : k < (0 :: levels piles).length := by
    rw [List.length_cons]
    omega
  have hj : j < (0 :: levels piles).length := by omega
  unfold level
  rw [List.getD_eq_getElem?_getD, List.getD_eq_getElem?_getD,
    List.getElem?_eq_getElem hj, List.getElem?_eq_getElem hk]
  exact List.pairwise_iff_getElem.mp hIncreasing j k hj hk hLt

/- Every pile that is not empty reaches the first level. -/
theorem first_level_le
    {piles : List Nat}
    {pile : Nat}
    (hMem : pile ∈ piles)
    (hPos : 0 < pile) :
    level piles 1 ≤ pile := by
  have hIn := mem_levels.mpr ⟨hPos, hMem⟩
  have hIncreasing := levels_increasing piles
  unfold level
  cases hLevels : levels piles with
  | nil =>
      rw [hLevels] at hIn
      cases hIn
  | cons lowest rest =>
      rw [hLevels] at hIn hIncreasing
      change lowest ≤ pile
      rcases List.mem_cons.mp hIn with hSame | hRest
      · exact Nat.le_of_eq hSame.symm
      · exact Nat.le_of_lt
          ((List.pairwise_cons.mp hIncreasing).1 pile hRest)

/- Nothing is higher than the last level. -/
theorem le_last_level
    {piles : List Nat}
    {pile : Nat}
    (hMem : pile ∈ piles) :
    pile ≤ level piles (levels piles).length := by
  by_cases hPos : 0 < pile
  · have hIn := mem_levels.mpr ⟨hPos, hMem⟩
    rcases List.getElem?_of_mem hIn with ⟨k, hAt⟩
    have hk := (List.getElem?_eq_some_iff.mp hAt).1
    rw [← level_succ hAt]
    rcases Nat.eq_or_lt_of_le (Nat.succ_le_of_lt hk) with
      hSame | hLt
    · exact Nat.le_of_eq (congrArg (level piles) hSame)
    · exact Nat.le_of_lt (level_lt_level hLt (Nat.le_refl _))
  · omega

/- The last level is the ground, or a pile ends there. -/
theorem last_level_mem
    (piles : List Nat) :
    level piles (levels piles).length = 0 ∨
      level piles (levels piles).length ∈ piles := by
  cases hLength : (levels piles).length with
  | zero => exact Or.inl rfl
  | succ k =>
      have hk : k < (levels piles).length := by omega
      have hAt := List.getElem?_eq_getElem hk
      rw [level_succ hAt]
      exact Or.inr (mem_levels.mp (List.getElem_mem hk)).2

end Layers
