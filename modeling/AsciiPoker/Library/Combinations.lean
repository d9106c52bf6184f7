import Mathlib.Data.List.Sublists

/-
  Steppers, and the one that goes through the increasing
  lists of a fixed length in lexicographic order.

  `Visits` says which states a stepper goes through before
  it stops; `visited` collects them, for so many rounds.
  `successor` bumps the last entry that can still grow and
  resets those after it.

  Main declarations:
    * `Stepper.Visits`, `Stepper.visited`,
      `Stepper.visited_of_visits`
    * `Combinations.successor`, `Combinations.inOrder`
    * `Combinations.visits_inOrder`
-/

------------------------------------------------------------
-- Steppers
------------------------------------------------------------

namespace Stepper

variable {State Image : Type}
variable {next : State → Option State}
variable {nextImage : Image → Option Image}
variable {s : State}
variable {states : List State}

/- From `s` these states are visited before the stepper stops. -/
inductive Visits
    (next : State → Option State) :
    State → List State → Prop
  | stop
      {s : State}
      (hStop : next s = none) :
      Visits next s [s]
  | step
      {s t : State}
      {states : List State}
      (hNext : next s = some t)
      (hRest : Visits next t states) :
      Visits next s (s :: states)

/- The states that are visited in so many rounds. -/
def visited
    (next : State → Option State) :
    Nat → State → List State
| 0, _ => []
| rounds + 1, s =>
    s ::
      match next s with
      | some t => visited next rounds t
      | none => []

/- Enough rounds visit all of them, and no more. -/
theorem visited_of_visits
    {rounds : Nat}
    (hVisits : Visits next s states)
    (hRounds : states.length ≤ rounds) :
    visited next rounds s = states := by
  induction hVisits generalizing rounds with
  | stop hStop =>
      cases rounds with
      | zero => cases hRounds
      | succ rounds => simp [visited, hStop]
  | step hNext hRest ih =>
      cases rounds with
      | zero => cases hRounds
      | succ rounds =>
          simp only [visited, hNext]
          rw [ih (Nat.le_of_succ_le_succ hRounds)]

/- Steppers that agree on what is visited visit the same. -/
theorem Visits.congr
    {other : State → Option State}
    (hVisits : Visits next s states)
    (hAgree : ∀ t ∈ states, next t = other t) :
    Visits other s states := by
  induction hVisits with
  | stop hStop =>
      exact .stop ((hAgree _ (List.mem_cons_self ..)).symm.trans
        hStop)
  | step hNext hRest ih =>
      refine .step ((hAgree _
        (List.mem_cons_self ..)).symm.trans hNext) (ih ?_)
      intro t ht
      exact hAgree t (List.mem_cons_of_mem _ ht)

/- The images of what one stepper visits, where it stops. -/
theorem Visits.map
    {f : State → Image}
    (hVisits : Visits next s states)
    (hStep : ∀ t ∈ states, ∀ u, next t = some u →
      nextImage (f t) = some (f u))
    (hStop : ∀ t ∈ states, next t = none →
      nextImage (f t) = none) :
    Visits nextImage (f s) (states.map f) := by
  induction hVisits with
  | stop hNone =>
      exact .stop (hStop _ (List.mem_cons_self ..) hNone)
  | step hNext hRest ih =>
      refine .step (hStep _ (List.mem_cons_self ..) _ hNext)
        (ih ?_ ?_)
      · intro t ht
        exact hStep t (List.mem_cons_of_mem _ ht)
      · intro t ht
        exact hStop t (List.mem_cons_of_mem _ ht)

/- And where the other one goes on from there. -/
theorem Visits.map_append
    {f : State → Image}
    {t : Image}
    {images : List Image}
    (hVisits : Visits next s states)
    (hStep : ∀ t ∈ states, ∀ u, next t = some u →
      nextImage (f t) = some (f u))
    (hGoesOn : ∀ u ∈ states, next u = none →
      nextImage (f u) = some t)
    (hRest : Visits nextImage t images) :
    Visits nextImage (f s) (states.map f ++ images) := by
  induction hVisits with
  | stop hNone =>
      exact .step (hGoesOn _ (List.mem_cons_self ..) hNone)
        hRest
  | step hNext _ ih =>
      refine .step (hStep _ (List.mem_cons_self ..) _ hNext)
        (ih ?_ ?_)
      · intro t ht
        exact hStep t (List.mem_cons_of_mem _ ht)
      · intro t ht
        exact hGoesOn t (List.mem_cons_of_mem _ ht)

end Stepper

------------------------------------------------------------
-- Combinations in Lexicographic Order
------------------------------------------------------------

namespace Combinations

open Stepper

/- The next increasing list of the same length below `n`. -/
def successor
    (n : Nat) :
    List Nat → Option (List Nat)
| [] => none
| c :: rest =>
    match successor n rest with
    | some bumped => some (c :: bumped)
    | none =>
        if c + (rest.length + 1) = n then
          none
        else
          some (List.range' (c + 1) (rest.length + 1))

variable {α : Type}

/- The sublists of length `k`, in lexicographic order. -/
def inOrder
    (k : Nat)
    (l : List α) : List (List α) :=
  (List.sublistsLen k l).reverse

/- Those with the first entry come first. -/
theorem inOrder_succ_cons
    (k : Nat)
    (a : α)
    (l : List α) :
    inOrder (k + 1) (a :: l) =
      (inOrder k l).map (a :: ·) ++ inOrder (k + 1) l := by
  unfold inOrder
  rw [List.sublistsLen_succ_cons, List.reverse_append,
    List.map_reverse]

theorem mem_inOrder
    {k : Nat}
    {l sub : List α} :
    sub ∈ inOrder k l ↔ sub.Sublist l ∧ sub.length = k := by
  rw [inOrder, List.mem_reverse, List.mem_sublistsLen]

theorem length_inOrder
    (k : Nat)
    (l : List α) :
    (inOrder k l).length = l.length.choose k := by
  rw [inOrder, List.length_reverse, List.length_sublistsLen]

theorem nodup_inOrder
    (k : Nat)
    {l : List α}
    (hNodup : l.Nodup) :
    (inOrder k l).Nodup :=
  List.nodup_reverse.mpr (List.nodup_sublistsLen k hNodup)

/- A list is as good as its entries under a function. -/
theorem inOrder_map
    {β : Type}
    (f : α → β)
    (k : Nat)
    (l : List α) :
    inOrder k (l.map f) = (inOrder k l).map (List.map f) := by
  induction l generalizing k with
  | nil =>
      cases k with
      | zero => rfl
      | succ k => rfl
  | cons a l ih =>
      cases k with
      | zero => simp [inOrder]
      | succ k =>
          rw [List.map_cons, inOrder_succ_cons,
            inOrder_succ_cons, ih, ih, List.map_append,
            List.map_map, List.map_map]
          rfl

/-
  From the first list of length `k` on, the stepper visits
  them all in order and stops.
-/
theorem visits_inOrder
    {k m : Nat}
    (lo : Nat)
    (hk : k ≤ m) :
    Visits (successor (lo + m)) (List.range' lo k)
      (inOrder k (List.range' lo m)) := by
  induction m generalizing lo k with
  | zero =>
      have hZero : k = 0 := by omega
      subst hZero
      exact .stop rfl
  | succ m ih =>
      cases k with
      | zero =>
          have hOne : inOrder 0 (List.range' lo (m + 1)) =
              [[]] := by
            simp [inOrder]
          rw [hOne]
          exact .stop rfl
      | succ k =>
          have hSame : lo + 1 + m = lo + (m + 1) := by omega
          have hFirst := @ih k (lo + 1) (by omega)
          rw [hSame] at hFirst
          have hLength : ∀ t ∈ inOrder k
              (List.range' (lo + 1) m), t.length = k := by
            intro t ht
            exact (mem_inOrder.mp ht).2
          have hHead : List.range' lo (k + 1) =
              lo :: List.range' (lo + 1) k := List.range'_succ
          have hTail : List.range' lo (m + 1) =
              lo :: List.range' (lo + 1) m := List.range'_succ
          rw [hHead, hTail, inOrder_succ_cons]
          by_cases hRoom : k + 1 ≤ m
          · have hRest := @ih (k + 1) (lo + 1) hRoom
            rw [hSame] at hRest
            apply hFirst.map_append _ _ hRest
            · intro t _ u hu
              simp [successor, hu]
            · intro u hu hNone
              have hGrows : ¬ lo + (k + 1) = lo + (m + 1) := by
                omega
              simp only [successor, hNone, hLength u hu,
                if_neg hGrows]
          · have hFull : k = m := by omega
            have hNone : inOrder (k + 1)
                (List.range' (lo + 1) m) = [] := by
              rw [inOrder, List.sublistsLen_of_length_lt
                (by rw [List.length_range']; omega)]
              rfl
            rw [hNone, List.append_nil]
            apply hFirst.map
            · intro t _ u hu
              simp [successor, hu]
            · intro u hu hStop
              simp [successor, hStop, hLength u hu, hFull]

end Combinations
