import Mathlib

/-
  Tables and sums over their keys.

  A table is read through its keys, and a change touches the
  values at some of them.  What the whole loses is what the
  part that was touched loses.

  Main declarations:
    * `List.sum_map_split`
    * `List.sum_map_exchange_part`
    * `List.find?_of_nodup_map`
-/

namespace List

variable {K : Type}
variable [DecidableEq K]
variable {part all : List K}
variable {f g : K → Nat}

theorem sum_map_eq_sum_toFinset
    (hNodup : all.Nodup)
    (f : K → Nat) :
    (all.map f).sum = ∑ k ∈ all.toFinset, f k :=
  (List.sum_toFinset f hNodup).symm

/- A part of the keys, and the others. -/
theorem sum_map_split
    (hAll : all.Nodup)
    (hPart : part.Nodup)
    (hSubset : part ⊆ all)
    (f : K → Nat) :
    (all.map f).sum =
      (part.map f).sum +
        (all.map fun k => if k ∈ part then 0 else f k).sum := by
  have hHere : (part.map f).sum =
      (all.map fun k => if k ∈ part then f k else 0).sum := by
    rw [sum_map_eq_sum_toFinset hPart,
      sum_map_eq_sum_toFinset hAll]
    have hInside : part.toFinset ⊆ all.toFinset :=
      fun k hk => List.mem_toFinset.mpr
        (hSubset (List.mem_toFinset.mp hk))
    rw [← Finset.sum_subset hInside]
    · apply Finset.sum_congr rfl
      intro k hk
      rw [if_pos (List.mem_toFinset.mp hk)]
    · intro k _ hk
      rw [if_neg fun h => hk (List.mem_toFinset.mpr h)]
  rw [hHere, ← List.sum_map_add]
  congr 1
  apply List.map_congr_left
  intro k _
  split
  · rfl
  · simp

/-
  Two tables with the same keys, which agree outside a part,
  differ in their sums by what they differ on the part.
-/
theorem sum_map_exchange_part
    (hAll : all.Nodup)
    (hPart : part.Nodup)
    (hKeys : ∀ k, k ∉ all → f k = 0 ∧ g k = 0)
    (hAgree : ∀ k, k ∉ part → f k = g k) :
    (all.map f).sum + (part.map g).sum =
      (all.map g).sum + (part.map f).sum := by
  have hWhole : ∀ h : K → Nat, (∀ k, k ∉ all → h k = 0) →
      (all.map h).sum =
        ∑ k ∈ all.toFinset ∪ part.toFinset, h k := by
    intro h hNone
    rw [sum_map_eq_sum_toFinset hAll]
    apply Finset.sum_subset Finset.subset_union_left
    exact fun k _ hk =>
      hNone k fun h => hk (List.mem_toFinset.mpr h)
  have hBoth : ∀ h : K → Nat,
      ∑ k ∈ all.toFinset ∪ part.toFinset, h k =
        ∑ k ∈ (all.toFinset ∪ part.toFinset) \
          part.toFinset, h k + (part.map h).sum := by
    intro h
    rw [sum_map_eq_sum_toFinset hPart,
      Finset.sum_sdiff Finset.subset_union_right]
  have hOthers :
      ∑ k ∈ (all.toFinset ∪ part.toFinset) \
          part.toFinset, f k =
        ∑ k ∈ (all.toFinset ∪ part.toFinset) \
          part.toFinset, g k := by
    apply Finset.sum_congr rfl
    intro k hk
    exact hAgree k fun h => (Finset.mem_sdiff.mp hk).2
      (List.mem_toFinset.mpr h)
  rw [hWhole f fun k hk => (hKeys k hk).1,
    hWhole g fun k hk => (hKeys k hk).2, hBoth f, hBoth g,
    hOthers]
  omega

/- Whoever is looked for by his own key is found. -/
theorem find?_of_nodup_map
    {α β : Type}
    [DecidableEq β]
    {f : α → β}
    {xs : List α}
    {x : α}
    (hNodup : (xs.map f).Nodup)
    (hMem : x ∈ xs) :
    xs.find? (fun y => f y = f x) = some x := by
  induction xs with
  | nil => cases hMem
  | cons y ys ih =>
      rw [List.map_cons, List.nodup_cons] at hNodup
      rcases List.mem_cons.mp hMem with rfl | hTail
      · simp
      · have hNe : f y ≠ f x := fun hSame =>
          hNodup.1 (hSame ▸ List.mem_map_of_mem hTail)
        rw [List.find?_cons_of_neg (by simpa using hNe)]
        exact ih hNodup.2 hTail

end List
