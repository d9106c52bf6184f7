import Mathlib.Data.List.Basic

/-
  Letters to recipients, in the order in which they were
  sent, and the last one of a kind that somebody got.

  A kind of letter is given by `pick`, which reads a letter
  of that kind and nothing from any other.

  A reader who takes the letters one by one settles when he
  is calmed by one of them, or is calm already, and nothing
  that comes after it stirs him.

  Main declarations:
    * `Mailbox.picked`, `Mailbox.last`
    * `Mailbox.last_append_of_some`,
      `Mailbox.last_append_of_nil`
    * `Mailbox.last_toAll`
    * `Mailbox.Settles`, `Mailbox.Settles.read`
-/

------------------------------------------------------------
-- Letters
------------------------------------------------------------

namespace Mailbox

variable {R M α : Type}
variable [DecidableEq R]

/- What `pick` reads in the letters to `r`, oldest first. -/
def picked
    (pick : M → Option α)
    (r : R)
    (letters : List (R × M)) : List α :=
  letters.filterMap fun letter =>
    if letter.1 = r then pick letter.2 else none

/- What `pick` reads in the last letter to `r` of its kind. -/
def last
    (pick : M → Option α)
    (r : R)
    (letters : List (R × M)) : Option α :=
  (picked pick r letters).getLast?

variable {pick : M → Option α}
variable {r : R}
variable {letters more : List (R × M)}

@[simp] theorem picked_nil :
    picked pick r ([] : List (R × M)) = [] := rfl

@[simp] theorem picked_append :
    picked pick r (letters ++ more) =
      picked pick r letters ++ picked pick r more :=
  List.filterMap_append

theorem picked_cons
    (q : R)
    (m : M) :
    picked pick r ((q, m) :: letters) =
      (if q = r then pick m else none).toList ++
        picked pick r letters := by
  unfold picked
  rw [List.filterMap_cons]
  cases if q = r then pick m else none with
  | none => rfl
  | some a => rfl

/- Letters of another kind do not count. -/
theorem last_append_of_nil
    (hNone : picked pick r more = []) :
    last pick r (letters ++ more) = last pick r letters := by
  unfold last
  rw [picked_append, hNone, List.append_nil]

/- A later letter replaces an earlier one. -/
theorem last_append_of_some
    {a : α}
    (hSome : last pick r more = some a) :
    last pick r (letters ++ more) = some a := by
  unfold last at hSome ⊢
  rw [picked_append, List.getLast?_append, hSome]
  rfl

theorem picked_eq_nil
    (hNone : ∀ m, (r, m) ∈ letters → pick m = none) :
    picked pick r letters = [] := by
  unfold picked
  rw [List.filterMap_eq_nil_iff]
  rintro ⟨q, m⟩ hMem
  by_cases hEq : q = r
  · subst hEq
    rw [if_pos rfl]
    exact hNone m hMem
  · exact if_neg hEq

------------------------------------------------------------
-- A Letter to Everybody
------------------------------------------------------------

/- One letter to each of `rs`. -/
def toAll
    (rs : List R)
    (msg : R → M) : List (R × M) :=
  rs.map fun q => (q, msg q)

variable {rs : List R}
variable {msg : R → M}

/- Whoever is not addressed gets nothing. -/
theorem picked_toAll_of_notMem
    (hNot : r ∉ rs) :
    picked pick r (toAll rs msg) = [] := by
  apply picked_eq_nil
  intro m hMem
  rcases List.mem_map.mp hMem with ⟨q, hq, hEq⟩
  cases hEq
  exact absurd hq hNot

/- A letter of another kind is not picked. -/
theorem picked_toAll_of_none
    (hNone : ∀ q, pick (msg q) = none) :
    picked pick r (toAll rs msg) = [] := by
  apply picked_eq_nil
  intro m hMem
  rcases List.mem_map.mp hMem with ⟨q, hq, hEq⟩
  cases hEq
  exact hNone r

/- Everybody who is addressed got this letter last. -/
theorem last_toAll
    {a : α}
    (hMem : r ∈ rs)
    (hPick : pick (msg r) = some a) :
    last pick r (toAll rs msg) = some a := by
  unfold toAll
  induction rs with
  | nil => cases hMem
  | cons q qs ih =>
      by_cases hTail : r ∈ qs
      · have hLater := ih hTail
        rw [List.map_cons, ← List.singleton_append]
        exact last_append_of_some hLater
      · have hHead : r = q :=
          (List.mem_cons.mp hMem).resolve_right hTail
        subst hHead
        have hRest : picked pick r (toAll qs msg) = [] :=
          picked_toAll_of_notMem hTail
        rw [List.map_cons, ← List.singleton_append]
        unfold toAll at hRest
        rw [last_append_of_nil hRest]
        simp [last, picked, hPick]

/- A reader who is addressed once gets his one letter. -/
theorem picked_toAll_of_mem
    {a : α}
    (hNodup : rs.Nodup)
    (hMem : r ∈ rs)
    (hPick : pick (msg r) = some a) :
    picked pick r (toAll rs msg) = [a] := by
  unfold toAll
  induction rs with
  | nil => cases hMem
  | cons q qs ih =>
      rcases List.nodup_cons.mp hNodup with ⟨hNew, hRest⟩
      rw [List.map_cons, picked_cons]
      rcases List.mem_cons.mp hMem with rfl | hTail
      · have hNone : picked pick r (toAll qs msg) = [] :=
          picked_toAll_of_notMem hNew
        unfold toAll at hNone
        rw [if_pos rfl, hPick, hNone]
        rfl
      · have hNe : q ≠ r := fun hEq => hNew (hEq ▸ hTail)
        rw [if_neg hNe, ih hRest hTail]
        rfl

------------------------------------------------------------
-- Readers That Settle
------------------------------------------------------------

variable {C : Type}
variable {calm : C → Prop}
variable {calms mild : M → Prop}
variable {handle : C → M → C}
variable {c d : C}
variable {inbox more : List M}

/-
  The reader is calm and only mild letters are on their way,
  or one is that calms him, with mild letters behind it.
-/
def Settles
    (calm : C → Prop)
    (calms mild : M → Prop)
    (c : C)
    (inbox : List M) : Prop :=
  (calm c ∧ ∀ m ∈ inbox, mild m) ∨
    ∃ before m after, inbox = before ++ m :: after ∧
      calms m ∧ ∀ m ∈ after, mild m

/- Reading on, he will still settle. -/
theorem Settles.read
    {m : M}
    (hSettles : Settles calm calms mild c (m :: inbox))
    (hStays : ∀ c m, calm c → mild m → calm (handle c m))
    (hCalms : ∀ c m, calms m → calm (handle c m)) :
    Settles calm calms mild (handle c m) inbox := by
  rcases hSettles with
    ⟨hCalm, hMild⟩ | ⟨before, n, after, hInbox, hLetter, hMild⟩
  · rcases List.forall_mem_cons.mp hMild with ⟨hHead, hRest⟩
    exact Or.inl ⟨hStays c m hCalm hHead, hRest⟩
  · cases before with
    | nil =>
        rw [List.nil_append, List.cons.injEq] at hInbox
        rcases hInbox with ⟨rfl, rfl⟩
        exact Or.inl ⟨hCalms c m hLetter, hMild⟩
    | cons first before =>
        rw [List.cons_append, List.cons.injEq] at hInbox
        exact Or.inr ⟨before, n, after, hInbox.2, hLetter,
          hMild⟩

/- More mild letters do not stir him. -/
theorem Settles.append
    (hSettles : Settles calm calms mild c inbox)
    (hMore : ∀ m ∈ more, mild m) :
    Settles calm calms mild c (inbox ++ more) := by
  have hBoth : ∀ letters : List M, (∀ m ∈ letters, mild m) →
      ∀ m ∈ letters ++ more, mild m := by
    intro letters hMild m hMem
    rcases List.mem_append.mp hMem with hEarlier | hLater
    · exact hMild m hEarlier
    · exact hMore m hLater
  rcases hSettles with
    ⟨hCalm, hMild⟩ | ⟨before, n, after, rfl, hLetter, hMild⟩
  · exact Or.inl ⟨hCalm, hBoth _ hMild⟩
  · refine Or.inr ⟨before, n, after ++ more, ?_, hLetter,
      hBoth _ hMild⟩
    simp

/- A letter that calms settles whoever reads it. -/
theorem settles_of_calms
    {m : M}
    (hCalms : calms m) :
    Settles calm calms mild c (inbox ++ [m]) :=
  Or.inr ⟨inbox, m, [], rfl, hCalms, by simp⟩

/- What keeps a calm reader calm lets any settle. -/
theorem Settles.change
    (hSettles : Settles calm calms mild c inbox)
    (hStays : calm c → calm d) :
    Settles calm calms mild d inbox := by
  rcases hSettles with ⟨hCalm, hMild⟩ | hLater
  · exact Or.inl ⟨hStays hCalm, hMild⟩
  · exact Or.inr hLater

/- Whoever has read everything is calm. -/
theorem Settles.isCalm
    (hSettles : Settles calm calms mild c []) :
    calm c := by
  rcases hSettles with ⟨hCalm, _⟩ | ⟨before, n, after, hNil, _⟩
  · exact hCalm
  · simp at hNil

end Mailbox
