import Mathlib.Order.OrderIsoNat

/-
  Machines that come to an end: ranks that no move raises,
  what a falling rank makes inevitable, and how often an
  event that lowers it can occur.

  Main declarations:
    * `Transition.Inevitable`, `Transition.Inevitable.of_rank`
    * `Transition.finitely_often`
-/

namespace Transition

variable {State Label Rank : Type}

------------------------------------------------------------
-- What Is Inevitable
------------------------------------------------------------

/-
  However one moves, a goal is reached: from a state that is
  not a goal there is a move, and every move leads to a
  state of which the same holds.
-/
inductive Inevitable
    (Moves : State → State → Prop)
    (Goal : State → Prop) :
    State → Prop
  | here
      {s : State}
      (hGoal : Goal s) :
      Inevitable Moves Goal s
  | later
      {s : State}
      (hSome : ∃ t, Moves s t)
      (hAll : ∀ t, Moves s t → Inevitable Moves Goal t) :
      Inevitable Moves Goal s

/-
  The rank rule: where only a goal is without a move and
  every move lowers the rank, a goal is inevitable.
-/
theorem Inevitable.of_rank
    [Preorder Rank]
    [WellFoundedLT Rank]
    {Moves : State → State → Prop}
    {Goal : State → Prop}
    (Inv : State → Prop)
    (rank : State → Rank)
    (hKeep : ∀ s t, Inv s → ¬ Goal s → Moves s t → Inv t)
    (hLower : ∀ s t, Inv s → ¬ Goal s → Moves s t →
      rank t < rank s)
    (hMove : ∀ s, Inv s → ¬ Goal s → ∃ t, Moves s t)
    {s : State}
    (hStart : Inv s) :
    Inevitable Moves Goal s := by
  induction hRank : rank s using WellFoundedLT.induction
      generalizing s with
  | ind r ih =>
      by_cases hGoal : Goal s
      · exact Inevitable.here hGoal
      · refine Inevitable.later (hMove s hStart hGoal)
          fun t hStep => ?_
        have hLess := hLower s t hStart hGoal hStep
        rw [hRank] at hLess
        exact ih (rank t) hLess (hKeep s t hStart hGoal hStep)
          rfl

------------------------------------------------------------
-- What Happens Finitely Often
------------------------------------------------------------

/-
  In an endless sequence of steps none of which raises the
  rank, steps that lower it come to an end.
-/
theorem finitely_often
    [PartialOrder Rank]
    [WellFoundedLT Rank]
    (Inv : State → Prop)
    (Lowers : State → Label → Prop)
    (rank : State → Rank)
    {states : ℕ → State}
    {events : ℕ → Label}
    (hKeep : ∀ n, Inv (states n) → Inv (states (n + 1)))
    (hWeak : ∀ n, Inv (states n) →
      rank (states (n + 1)) ≤ rank (states n))
    (hStrict : ∀ n, Inv (states n) →
      Lowers (states n) (events n) →
        rank (states (n + 1)) < rank (states n))
    (hStart : Inv (states 0)) :
    ∃ n, ∀ m, n ≤ m → ¬ Lowers (states m) (events m) := by
  have hInv : ∀ n, Inv (states n) := by
    intro n
    induction n with
    | zero => exact hStart
    | succ n ih => exact hKeep n ih
  have hFalls : Antitone fun n => rank (states n) :=
    antitone_nat_of_succ_le fun n => hWeak n (hInv n)
  rcases WellFoundedLT.antitone_chain_condition hFalls with
    ⟨n, hConstant⟩
  refine ⟨n, fun m hLe hLowers => ?_⟩
  have hLess := hStrict m (hInv m) hLowers
  have hHere := hConstant m hLe
  have hNext := hConstant (m + 1) (Nat.le_succ_of_le hLe)
  exact absurd (hHere.symm.trans hNext) (ne_of_gt hLess)

end Transition
