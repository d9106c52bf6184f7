import AsciiPoker.Library.Transition

/-
  What has happened since.

  A fact that some steps establish and other steps leave
  alone holds after a run exactly when one of the former was
  taken and only the latter were taken since.

  Main declarations:
    * `Transition.Since`, `Transition.since_concat`
    * `Transition.Run.since`
-/

namespace Transition

------------------------------------------------------------
-- Traces
------------------------------------------------------------

section Traces

variable {Entry : Type}
variable {Sets Keeps : Entry → Prop}
variable {trace : List Entry}

/- One entry sets it, and all entries after that keep it. -/
def Since
    (Sets Keeps : Entry → Prop)
    (trace : List Entry) : Prop :=
  ∃ before x after, trace = before ++ x :: after ∧
    Sets x ∧ ∀ y ∈ after, Keeps y

/- Nothing has happened yet. -/
theorem not_since_nil :
    ¬ Since Sets Keeps [] := by
  rintro ⟨before, x, after, hNil, _⟩
  simp at hNil

/- The last entry sets it, or keeps what was set before. -/
theorem since_concat
    (x : Entry) :
    Since Sets Keeps (trace ++ [x]) ↔
      Sets x ∨ Since Sets Keeps trace ∧ Keeps x := by
  constructor
  · rintro ⟨before, y, after, hTrace, hSets, hKeeps⟩
    rcases List.eq_nil_or_concat' after with
      rfl | ⟨after, z, rfl⟩
    · have hLast := List.append_inj_right' hTrace rfl
      cases hLast
      exact Or.inl hSets
    · have hSplit : trace ++ [x] =
          (before ++ y :: after) ++ [z] := by
        rw [hTrace]
        simp
      have hFront := List.append_inj_left' hSplit rfl
      have hLast := List.append_inj_right' hSplit rfl
      cases hLast
      rcases List.forall_mem_append.mp hKeeps with
        ⟨hEarlier, hHere⟩
      exact Or.inr ⟨⟨before, y, after, hFront, hSets, hEarlier⟩,
        hHere x (List.mem_singleton_self x)⟩
  · rintro (hSets | ⟨⟨before, y, after, rfl, hSets, hKeeps⟩,
      hHere⟩)
    · exact ⟨trace, x, [], rfl, hSets, by simp⟩
    · refine ⟨before, y, after ++ [x], by simp, hSets, ?_⟩
      exact List.forall_mem_append.mpr
        ⟨hKeeps, List.forall_mem_singleton.mpr hHere⟩

end Traces

------------------------------------------------------------
-- Runs
------------------------------------------------------------

section Runs

variable {State Label Failure : Type}
variable {step : State → Label → Except Failure State}

/-
  The since rule, for a fact about states that are alive: a
  step to one leaves from one.
-/
theorem Run.since
    {Inv Live Holds : State → Prop}
    {Sets Keeps : State × Label → Prop}
    (hInv : ∀ s e t, Inv s → step s e = .ok t → Inv t)
    (hLive : ∀ s e t, Inv s → step s e = .ok t →
      Live t → Live s)
    (hKeep : ∀ s e t, Inv s → step s e = .ok t → Live t →
      (Holds t ↔ Sets (s, e) ∨ Holds s ∧ Keeps (s, e)))
    {s t : State}
    {trace : List (State × Label)}
    (run : Run step s trace t)
    (hStart : Inv s)
    (hNot : ¬ Holds s)
    (hAlive : Live t) :
    Holds t ↔ Since Sets Keeps trace := by
  induction run with
  | nil => exact iff_of_false hNot not_since_nil
  | snoc prior hStep ih =>
      have hPrior := prior.invariant_of_step hInv hStart
      have hBefore := hLive _ _ _ hPrior hStep hAlive
      rw [hKeep _ _ _ hPrior hStep hAlive, since_concat,
        ih hBefore]

end Runs

end Transition
