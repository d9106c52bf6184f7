import Mathlib.Data.List.TakeWhile

/-
  Reading a list from its front: the run of elements of a
  kind that it starts with, and reading it in pairs.

  Main declarations:
    * `Scanning.takeWhile_dropWhile_iff`,
      `Scanning.takeWhile_dropWhile_spec`
    * `Scanning.Pairs`, `Scanning.pairs_cons_cons`
-/

namespace Scanning

variable {α : Type}
variable {whole run rest : List α}

------------------------------------------------------------
-- Runs of a Kind
------------------------------------------------------------

/-
  A list falls in one way into elements of a kind and a rest
  that does not start with one.
-/
theorem takeWhile_dropWhile_iff
    {p : α → Bool} :
    whole.takeWhile p = run ∧ whole.dropWhile p = rest ↔
      whole = run ++ rest ∧ (∀ a ∈ run, p a) ∧
        ∀ a ∈ rest.head?, p a = false := by
  constructor
  · rintro ⟨rfl, rfl⟩
    refine ⟨List.takeWhile_append_dropWhile.symm, ?_, ?_⟩
    · intro a ha
      exact List.mem_takeWhile_imp ha
    · intro a ha
      have hStop := List.head?_dropWhile_not p whole
      rw [Option.mem_def.mp ha] at hStop
      simpa using hStop
  · rintro ⟨rfl, hRun, hStop⟩
    rw [List.takeWhile_append_of_pos hRun,
      List.dropWhile_append_of_pos hRun]
    cases rest with
    | nil => simp
    | cons a rest =>
        have hNot : p a = false := hStop a rfl
        simp [hNot]

/- Where a scan stops, the predicate fails first. -/
theorem takeWhile_dropWhile_spec
    (p : α → Bool)
    (whole : List α) :
    whole = whole.takeWhile p ++ whole.dropWhile p ∧
      (∀ a ∈ whole.takeWhile p, p a) ∧
        ∀ a ∈ (whole.dropWhile p).head?, p a = false :=
  takeWhile_dropWhile_iff.mp ⟨rfl, rfl⟩

------------------------------------------------------------
-- Pairs
------------------------------------------------------------

/- The list falls into pairs that are all related. -/
inductive Pairs
    (R : α → α → Prop) : List α → Prop
  | nil : Pairs R []
  | cons
      {first second : α}
      {rest : List α}
      (hPair : R first second)
      (hRest : Pairs R rest) :
      Pairs R (first :: second :: rest)

/- Two are taken at a time. -/
theorem pairs_cons_cons
    {R : α → α → Prop}
    {first second : α} :
    Pairs R (first :: second :: rest) ↔
      R first second ∧ Pairs R rest := by
  constructor
  · rintro (_ | ⟨hPair, hRest⟩)
    exact ⟨hPair, hRest⟩
  · rintro ⟨hPair, hRest⟩
    exact Pairs.cons hPair hRest

end Scanning
