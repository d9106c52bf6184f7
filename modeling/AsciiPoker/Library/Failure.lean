import Mathlib.Data.List.Basic

/-
  Computations that may fail, read backwards: what must
  have happened for a result to be there, and which failures
  there can be.

  Main declarations:
    * `Except.bind_eq_ok`, `Except.map_eq_ok`
    * `Except.FailsOnly`, `Except.FailsOnly.bind`
    * `Except.Agree`, `Except.Agree.bind`, `List.agree_foldlM`
    * `List.foldlM_invariant`, `List.foldlM_prefix`,
      `List.failsOnly_foldlM`
    * `List.mapM_eq_ok_forall₂`, `List.failsOnly_mapM`
-/

variable {Failure α β σ : Type}

------------------------------------------------------------
-- Sequencing
------------------------------------------------------------

namespace Except

/- A sequence succeeds when both of its parts do. -/
theorem bind_eq_ok
    {x : Except Failure α}
    {f : α → Except Failure β}
    {b : β} :
    x >>= f = .ok b ↔ ∃ a, x = .ok a ∧ f a = .ok b := by
  cases x with
  | error failure => simp [bind, Except.bind]
  | ok a => simp [bind, Except.bind]

/- A result is passed on. -/
@[simp] theorem ok_bind
    (a : α)
    (f : α → Except Failure β) :
    ((.ok a : Except Failure α) >>= f) = f a := rfl

/- A mapped result is the image of a result. -/
theorem map_eq_ok
    {x : Except Failure α}
    {f : α → β}
    {b : β} :
    x.map f = .ok b ↔ ∃ a, x = .ok a ∧ f a = b := by
  cases x with
  | error failure => simp [Except.map]
  | ok a => simp [Except.map]

------------------------------------------------------------
-- Failures
------------------------------------------------------------

/- If the computation fails, its failure is of this kind. -/
def FailsOnly
    (Kind : Failure → Prop)
    (x : Except Failure α) : Prop :=
  ∀ failure, x = .error failure → Kind failure

variable {Kind : Failure → Prop}

theorem failsOnly_ok
    (a : α) :
    FailsOnly Kind (.ok a : Except Failure α) := by
  intro failure hError
  cases hError

/- What can fail in no way has a result. -/
theorem FailsOnly.exists_ok
    {x : Except Failure α}
    (hNever : x.FailsOnly fun _ => False) :
    ∃ a, x = .ok a := by
  cases x with
  | error failure => exact (hNever failure rfl).elim
  | ok a => exact ⟨a, rfl⟩

/- A sequence fails as one of its parts does. -/
theorem FailsOnly.bind
    {x : Except Failure α}
    {f : α → Except Failure β}
    (hFirst : x.FailsOnly Kind)
    (hRest : ∀ a, x = .ok a → (f a).FailsOnly Kind) :
    (x >>= f).FailsOnly Kind := by
  cases x with
  | error failure =>
      intro other hError
      cases hError
      exact hFirst failure rfl
  | ok a => exact hRest a rfl

theorem FailsOnly.map
    {x : Except Failure α}
    {f : α → β}
    (hFirst : x.FailsOnly Kind) :
    (x.map f).FailsOnly Kind := by
  cases x with
  | error failure =>
      intro other hError
      cases hError
      exact hFirst failure rfl
  | ok a => exact failsOnly_ok (f a)

end Except

------------------------------------------------------------
-- Loops
------------------------------------------------------------

namespace List

/-
  The rule of a loop that may fail: what holds before it and
  is kept by its body on the elements of the list holds
  after it.
-/
theorem foldlM_invariant
    {f : σ → α → Except Failure σ}
    {Inv : σ → Prop}
    {xs : List α}
    {s t : σ}
    (hKeep : ∀ x ∈ xs, ∀ u v,
      Inv u → f u x = .ok v → Inv v)
    (hLoop : xs.foldlM f s = .ok t)
    (hStart : Inv s) :
    Inv t := by
  induction xs generalizing s with
  | nil =>
      cases hLoop
      exact hStart
  | cons x xs ih =>
      rw [List.foldlM_cons, Except.bind_eq_ok] at hLoop
      rcases hLoop with ⟨u, hHead, hTail⟩
      apply ih (fun y hy => hKeep y (List.mem_cons_of_mem _ hy))
        hTail
      exact hKeep x (List.mem_cons_self ..) s u hStart hHead

/-
  The rule of a loop whose invariant speaks of the elements
  it has gone through.
-/
theorem foldlM_prefix
    {f : σ → α → Except Failure σ}
    {Inv : List α → σ → Prop}
    {xs : List α}
    {s t : σ}
    (hKeep : ∀ done x rest u v, xs = done ++ x :: rest →
      Inv done u → f u x = .ok v → Inv (done ++ [x]) v)
    (hLoop : xs.foldlM f s = .ok t)
    (hStart : Inv [] s) :
    Inv xs t := by
  suffices hTail : ∀ (rest done : List α) (u : σ),
      xs = done ++ rest → Inv done u →
      rest.foldlM f u = .ok t → Inv xs t from
    hTail xs [] s rfl hStart hLoop
  intro rest
  induction rest with
  | nil =>
      intro done u hSplit hInv hEnd
      cases hEnd
      rwa [hSplit, List.append_nil]
  | cons x rest ih =>
      intro done u hSplit hInv hRest
      rw [List.foldlM_cons, Except.bind_eq_ok] at hRest
      rcases hRest with ⟨v, hHead, hLast⟩
      exact ih (done ++ [x]) v (by simpa using hSplit)
        (hKeep done x rest u v hSplit hInv hHead) hLast

/- The same rule for the kind of its failures. -/
theorem failsOnly_foldlM
    {Kind : Failure → Prop}
    {f : σ → α → Except Failure σ}
    (Inv : σ → Prop)
    {xs : List α}
    {s : σ}
    (hKeep : ∀ x ∈ xs, ∀ u v,
      Inv u → f u x = .ok v → Inv v)
    (hBody : ∀ x ∈ xs, ∀ u,
      Inv u → (f u x).FailsOnly Kind)
    (hStart : Inv s) :
    (xs.foldlM f s).FailsOnly Kind := by
  induction xs generalizing s with
  | nil => exact Except.failsOnly_ok s
  | cons x xs ih =>
      rw [List.foldlM_cons]
      have hHead := List.mem_cons_self (a := x) (l := xs)
      refine (hBody x hHead s hStart).bind fun u hStep => ?_
      exact ih
        (fun y hy => hKeep y (List.mem_cons_of_mem _ hy))
        (fun y hy => hBody y (List.mem_cons_of_mem _ hy))
        (hKeep x hHead s u hStart hStep)

/- And for an invariant that speaks of what was gone through. -/
theorem failsOnly_foldlM_prefix
    {Kind : Failure → Prop}
    {f : σ → α → Except Failure σ}
    (Inv : List α → σ → Prop)
    {xs : List α}
    {s : σ}
    (hKeep : ∀ done x rest u v, xs = done ++ x :: rest →
      Inv done u → f u x = .ok v → Inv (done ++ [x]) v)
    (hBody : ∀ done x rest u, xs = done ++ x :: rest →
      Inv done u → (f u x).FailsOnly Kind)
    (hStart : Inv [] s) :
    (xs.foldlM f s).FailsOnly Kind := by
  suffices hTail : ∀ (rest done : List α) (u : σ),
      xs = done ++ rest → Inv done u →
      (rest.foldlM f u).FailsOnly Kind from
    hTail xs [] s rfl hStart
  intro rest
  induction rest with
  | nil => exact fun _ u _ _ => Except.failsOnly_ok u
  | cons x rest ih =>
      intro done u hSplit hInv
      rw [List.foldlM_cons]
      refine (hBody done x rest u hSplit hInv).bind
        fun v hStep => ?_
      exact ih (done ++ [x]) v (by simpa using hSplit)
        (hKeep done x rest u v hSplit hInv hStep)

/- A list of computations fails as one of them does. -/
theorem failsOnly_mapM
    {Kind : Failure → Prop}
    {f : α → Except Failure β}
    {xs : List α}
    (hEach : ∀ x ∈ xs, (f x).FailsOnly Kind) :
    (xs.mapM f).FailsOnly Kind := by
  induction xs with
  | nil => exact Except.failsOnly_ok []
  | cons x xs ih =>
      rw [List.mapM_cons]
      have hTail := ih fun z hz =>
        hEach z (List.mem_cons_of_mem _ hz)
      refine (hEach x (List.mem_cons_self ..)).bind
        fun y _ => ?_
      exact hTail.bind fun ys _ => Except.failsOnly_ok _

/- A list of encoded values is decoded one by one. -/
theorem mapM_map_eq_ok
    {decode : β → Except Failure α}
    {encode : α → β}
    (hEach : ∀ x, decode (encode x) = .ok x)
    (xs : List α) :
    (xs.map encode).mapM decode = .ok xs := by
  induction xs with
  | nil => rfl
  | cons x xs ih =>
      rw [List.map_cons, List.mapM_cons, hEach, ih]
      rfl

/- A list of results matches the list it is computed from. -/
theorem mapM_eq_ok_forall₂
    {f : α → Except Failure β}
    {xs : List α}
    {ys : List β}
    (hMap : xs.mapM f = .ok ys) :
    List.Forall₂ (fun x y => f x = .ok y) xs ys := by
  induction xs generalizing ys with
  | nil =>
      rw [List.mapM_nil] at hMap
      cases hMap
      exact List.Forall₂.nil
  | cons x xs ih =>
      rw [List.mapM_cons, Except.bind_eq_ok] at hMap
      rcases hMap with ⟨y, hHead, hRest⟩
      rw [Except.bind_eq_ok] at hRest
      rcases hRest with ⟨rest, hTail, hEq⟩
      cases hEq
      exact List.Forall₂.cons hHead (ih hTail)

/- Each result comes from an element of the list. -/
theorem mem_of_mapM_eq_ok
    {f : α → Except Failure β}
    {xs : List α}
    {ys : List β}
    {y : β}
    (hMap : xs.mapM f = .ok ys)
    (hMem : y ∈ ys) :
    ∃ x ∈ xs, f x = .ok y := by
  have hAll := mapM_eq_ok_forall₂ hMap
  clear hMap
  induction hAll with
  | nil => cases hMem
  | @cons x y' xs ys hHead _ ih =>
      rcases List.mem_cons.mp hMem with rfl | hTail
      · exact ⟨x, List.mem_cons_self .., hHead⟩
      · rcases ih hTail with ⟨z, hz, hEq⟩
        exact ⟨z, List.mem_cons_of_mem _ hz, hEq⟩

/- Results that are seen through `view` as a list of values. -/
theorem map_of_mapM_eq_ok
    {γ : Type}
    {f : α → Except Failure β}
    {view : β → γ}
    {seen : α → γ}
    {xs : List α}
    {ys : List β}
    (hEach : ∀ x y, f x = .ok y → view y = seen x)
    (hMap : xs.mapM f = .ok ys) :
    ys.map view = xs.map seen := by
  have hAll := mapM_eq_ok_forall₂ hMap
  clear hMap
  induction hAll with
  | nil => rfl
  | cons hHead _ ih =>
      rw [List.map_cons, List.map_cons, hEach _ _ hHead, ih]

/- Results that look alike one by one make like lists. -/
theorem map_mapM_congr
    {γ : Type}
    {f g : α → Except Failure β}
    {view : β → γ}
    {xs : List α}
    (hEach : ∀ x ∈ xs, (f x).map view = (g x).map view) :
    (xs.mapM f).map (List.map view) =
      (xs.mapM g).map (List.map view) := by
  induction xs with
  | nil => rfl
  | cons x xs ih =>
      have hHead := hEach x (List.mem_cons_self ..)
      have hTail := ih fun y hy =>
        hEach y (List.mem_cons_of_mem _ hy)
      rw [List.mapM_cons, List.mapM_cons]
      cases hFirst : f x with
      | error failure =>
          cases hSecond : g x with
          | error other =>
              rw [hFirst, hSecond] at hHead
              cases hHead
              rfl
          | ok b =>
              rw [hFirst, hSecond] at hHead
              cases hHead
      | ok a =>
          cases hSecond : g x with
          | error other =>
              rw [hFirst, hSecond] at hHead
              cases hHead
          | ok b =>
              rw [hFirst, hSecond] at hHead
              have hSame : view a = view b := Except.ok.inj hHead
              rw [Except.ok_bind, Except.ok_bind]
              cases hRest : xs.mapM f with
              | error failure =>
                  cases hOther : xs.mapM g with
                  | error other =>
                      rw [hRest, hOther] at hTail
                      cases hTail
                      rfl
                  | ok bs =>
                      rw [hRest, hOther] at hTail
                      cases hTail
              | ok as =>
                  cases hOther : xs.mapM g with
                  | error other =>
                      rw [hRest, hOther] at hTail
                      cases hTail
                  | ok bs =>
                      rw [hRest, hOther] at hTail
                      have hAll : as.map view = bs.map view :=
                        Except.ok.inj hTail
                      change Except.ok (view a :: as.map view) =
                        Except.ok (view b :: bs.map view)
                      rw [hSame, hAll]

end List

------------------------------------------------------------
-- Two Computations
------------------------------------------------------------

section Agree

variable {τ γ : Type}

namespace Except

/- If both computations succeed, their results are related. -/
def Agree
    (R : α → β → Prop)
    (x : Except Failure α)
    (y : Except Failure β) : Prop :=
  ∀ a b, x = .ok a → y = .ok b → R a b

theorem agree_ok
    {R : α → β → Prop}
    {a : α}
    {b : β}
    (hRel : R a b) :
    Agree R (.ok a : Except Failure α) (.ok b) := by
  intro a' b' hA hB
  cases hA
  cases hB
  exact hRel

/- Two computations that are the same have the same result. -/
theorem agree_of_eq
    {x y : Except Failure α}
    (hEq : y = x) :
    Agree Eq x y := by
  intro a b hA hB
  rw [hEq, hA] at hB
  exact Except.ok.inj hB

/- The rule of two sequences. -/
theorem Agree.bind
    {R : α → β → Prop}
    {S : σ → τ → Prop}
    {x : Except Failure α}
    {y : Except Failure β}
    {f : α → Except Failure σ}
    {g : β → Except Failure τ}
    (hFirst : Agree R x y)
    (hRest : ∀ a b, R a b → Agree S (f a) (g b)) :
    Agree S (x >>= f) (y >>= g) := by
  intro u v hU hV
  rcases bind_eq_ok.mp hU with ⟨a, hA, hFa⟩
  rcases bind_eq_ok.mp hV with ⟨b, hB, hGb⟩
  exact hRest a b (hFirst a b hA hB) u v hFa hGb

end Except

/- The rule of two loops over one list. -/
theorem List.agree_foldlM
    {R : σ → τ → Prop}
    {f : σ → γ → Except Failure σ}
    {g : τ → γ → Except Failure τ}
    {xs : List γ}
    {s : σ}
    {t : τ}
    (hBody : ∀ x ∈ xs, ∀ u v, R u v →
      Except.Agree R (f u x) (g v x))
    (hStart : R s t) :
    Except.Agree R (xs.foldlM f s) (xs.foldlM g t) := by
  induction xs generalizing s t with
  | nil => exact Except.agree_ok hStart
  | cons x xs ih =>
      rw [List.foldlM_cons, List.foldlM_cons]
      have hHead := hBody x (List.mem_cons_self ..) s t hStart
      refine hHead.bind fun u v hRel => ?_
      exact ih
        (fun y hy => hBody y (List.mem_cons_of_mem _ hy)) hRel

end Agree
