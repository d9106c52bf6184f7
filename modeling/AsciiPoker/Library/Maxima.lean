import Mathlib.Data.List.Nodup
import Mathlib.Order.Lattice

/-
  The greatest elements of a list, ties included, as a scan
  finds them one element after another.

  Main declarations:
    * `Maxima.maxima`, `Maxima.IsBest`
    * `Maxima.maxima_concat_of_lt`,
      `Maxima.maxima_concat_of_eq`,
      `Maxima.maxima_concat_of_gt`
-/

namespace Maxima

variable {α β : Type} [LinearOrder β]
variable {f : α → β} {l : List α} {a : α} {best : β}

/- The elements with the greatest value, in their order. -/
def maxima
    (f : α → β)
    (l : List α) : List α :=
  l.filter fun a => ∀ b ∈ l, f b ≤ f a

/- The greatest value in the list. -/
def IsBest
    (f : α → β)
    (l : List α)
    (best : β) : Prop :=
  (∀ b ∈ l, f b ≤ best) ∧ ∃ b ∈ l, f b = best

/- The maxima are the elements of the greatest value. -/
theorem maxima_eq_filter
    (hBest : IsBest f l best) :
    maxima f l = l.filter fun a => f a = best := by
  rcases hBest with ⟨hAll, b, hb, rfl⟩
  apply List.filter_congr
  intro a ha
  rw [decide_eq_decide]
  constructor
  · intro hMax
    exact le_antisymm (hAll a ha) (hMax b hb)
  · intro hSame c hc
    rw [hSame]
    exact hAll c hc

theorem maxima_ne_nil
    (hBest : IsBest f l best) :
    maxima f l ≠ [] := by
  rw [maxima_eq_filter hBest]
  rcases hBest.2 with ⟨b, hb, hSame⟩
  apply List.ne_nil_of_mem
  exact List.mem_filter.mpr ⟨hb, decide_eq_true hSame⟩

/- One element is the greatest of all. -/
theorem maxima_singleton
    (f : α → β)
    (a : α) :
    maxima f [a] = [a] := by
  simp [maxima]

theorem IsBest.singleton
    (f : α → β)
    (a : α) :
    IsBest f [a] (f a) := by
  simp [IsBest]

/- Where there is an element, there is a greatest value. -/
theorem exists_isBest
    (hSome : l ≠ []) :
    ∃ best, IsBest f l best := by
  induction l with
  | nil => exact absurd rfl hSome
  | cons a l ih =>
      by_cases hNil : l = []
      · rw [hNil]
        exact ⟨f a, IsBest.singleton f a⟩
      · rcases ih hNil with ⟨best, hAll, b, hb, rfl⟩
        rcases le_total (f a) (f b) with hLe | hGe
        · refine ⟨f b, ?_, b, List.mem_cons_of_mem _ hb, rfl⟩
          exact List.forall_mem_cons.mpr ⟨hLe, hAll⟩
        · refine ⟨f a, ?_, a, List.mem_cons_self .., rfl⟩
          refine List.forall_mem_cons.mpr ⟨le_refl _, ?_⟩
          intro c hc
          exact (hAll c hc).trans hGe

------------------------------------------------------------
-- One Element More
------------------------------------------------------------

/- A greater element is the only maximum. -/
theorem maxima_concat_of_lt
    (hBest : ∀ b ∈ l, f b < f a) :
    maxima f (l ++ [a]) = [a] ∧
      IsBest f (l ++ [a]) (f a) := by
  have hIs : IsBest f (l ++ [a]) (f a) := by
    refine ⟨?_, a, by simp, rfl⟩
    intro b hb
    rcases List.mem_append.mp hb with hOld | hNew
    · exact (hBest b hOld).le
    · rw [List.mem_singleton.mp hNew]
  refine ⟨?_, hIs⟩
  rw [maxima_eq_filter hIs, List.filter_append]
  have hNone : (l.filter fun b => f b = f a) = [] := by
    rw [List.filter_eq_nil_iff]
    intro b hb hSame
    exact absurd (of_decide_eq_true hSame) (hBest b hb).ne
  rw [hNone]
  simp

/- An equal one is a further maximum. -/
theorem maxima_concat_of_eq
    (hBest : IsBest f l (f a)) :
    maxima f (l ++ [a]) = maxima f l ++ [a] ∧
      IsBest f (l ++ [a]) (f a) := by
  have hIs : IsBest f (l ++ [a]) (f a) := by
    refine ⟨?_, a, by simp, rfl⟩
    intro b hb
    rcases List.mem_append.mp hb with hOld | hNew
    · exact hBest.1 b hOld
    · rw [List.mem_singleton.mp hNew]
  refine ⟨?_, hIs⟩
  rw [maxima_eq_filter hIs, maxima_eq_filter hBest,
    List.filter_append]
  simp

/- A smaller one is none. -/
theorem maxima_concat_of_gt
    (hBest : IsBest f l best)
    (hLess : f a < best) :
    maxima f (l ++ [a]) = maxima f l ∧
      IsBest f (l ++ [a]) best := by
  have hIs : IsBest f (l ++ [a]) best := by
    rcases hBest with ⟨hAll, b, hb, hSame⟩
    refine ⟨?_, b, List.mem_append_left _ hb, hSame⟩
    intro c hc
    rcases List.mem_append.mp hc with hOld | hNew
    · exact hAll c hOld
    · rw [List.mem_singleton.mp hNew]
      exact hLess.le
  refine ⟨?_, hIs⟩
  rw [maxima_eq_filter hIs, maxima_eq_filter hBest,
    List.filter_append]
  simp [hLess.ne]

end Maxima
