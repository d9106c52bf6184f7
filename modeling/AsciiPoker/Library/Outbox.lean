import Mathlib.Data.List.Infix

/-
  Items that leave one at a time.

  An item is accepted into a queue and stays at its front
  while it is under way; when it has landed it is taken from
  the queue and the next one is dispatched.  `handed` and
  `accepted` keep account of all items so far.

  Main declarations:
    * `Outbox`, `Outbox.accept`, `Outbox.dispatch`,
      `Outbox.land`
    * `Outbox.Sound`
    * `Outbox.Sound.prefix`, `Outbox.Sound.atMostOne`
-/

------------------------------------------------------------
-- Outboxes
------------------------------------------------------------

structure Outbox
    (α : Type) where
  queue : List α
  flying : List α
  handed : List α
  accepted : List α

namespace Outbox

variable {α : Type}

/- Take an item in. -/
def accept
    (o : Outbox α)
    (a : α) : Outbox α :=
  { o with
    queue := o.queue ++ [a]
    accepted := o.accepted ++ [a] }

/- Let the front of the queue go, which stays there. -/
def dispatch
    (o : Outbox α) : Outbox α :=
  { o with
    flying := o.flying ++ o.queue.take 1
    handed := o.handed ++ o.queue.take 1 }

/- The front of the queue has landed. -/
def land
    (o : Outbox α) : Outbox α :=
  { o with
    queue := o.queue.drop 1
    flying := [] }

------------------------------------------------------------
-- Soundness
------------------------------------------------------------

/-
  What is under way is the front of the queue, the rest of
  the queue is what has been accepted and not handed over,
  and nothing waits while nothing is under way.
-/
structure Sound
    (o : Outbox α)
    (busy : Bool) : Prop where
  flying_eq : o.flying = o.queue.take 1
  accepted_eq : o.accepted = o.handed ++ o.queue.drop 1
  busy_iff : busy = true ↔ o.queue ≠ []

variable {o : Outbox α}
variable {busy : Bool}

theorem Sound.atMostOne
    (hSound : o.Sound busy) :
    o.flying.length ≤ 1 := by
  rw [hSound.flying_eq, List.length_take]
  exact Nat.min_le_left _ _

/- Items are handed over in the order they came in. -/
theorem Sound.prefix
    (hSound : o.Sound busy) :
    o.handed <+: o.accepted :=
  ⟨o.queue.drop 1, hSound.accepted_eq.symm⟩

/- An idle outbox is empty. -/
theorem Sound.queue_eq_nil
    (hSound : o.Sound false) :
    o.queue = [] := by
  by_contra hSome
  exact Bool.false_ne_true (hSound.busy_iff.mpr hSome)

/- An item that finds the outbox idle goes at once. -/
theorem Sound.accept_dispatch
    (a : α)
    (hSound : o.Sound false) :
    (o.accept a).dispatch.Sound true := by
  have hEmpty := hSound.queue_eq_nil
  rcases hSound with ⟨hFlying, hAccepted, _⟩
  rw [hEmpty] at hFlying hAccepted
  refine ⟨?_, ?_, ?_⟩
  · simp [accept, dispatch, hEmpty, hFlying]
  · simp [accept, dispatch, hEmpty, hAccepted]
  · simp [accept, dispatch]

/- An item that finds another under way waits its turn. -/
theorem Sound.accept
    (a : α)
    (hSound : o.Sound true) :
    (o.accept a).Sound true := by
  have hSome := hSound.busy_iff.mp rfl
  rcases List.exists_cons_of_ne_nil hSome with
    ⟨front, rest, hQueue⟩
  rcases hSound with ⟨hFlying, hAccepted, _⟩
  rw [hQueue] at hFlying hAccepted
  refine ⟨?_, ?_, ?_⟩
  · simp [Outbox.accept, hQueue, hFlying]
  · simp [Outbox.accept, hQueue, hAccepted]
  · simp [Outbox.accept]

/- The next item goes when one has landed. -/
theorem Sound.land_dispatch
    (hSound : o.Sound busy) :
    o.land.dispatch.Sound (!o.land.queue.isEmpty) := by
  refine ⟨rfl, ?_, by simp [dispatch]⟩
  change o.accepted =
    o.handed ++ o.land.queue.take 1 ++ o.land.queue.drop 1
  rw [List.append_assoc, List.take_append_drop]
  exact hSound.accepted_eq

/- Nothing goes when the last item has landed. -/
theorem Sound.land
    (hSound : o.Sound busy)
    (hLast : o.land.queue = []) :
    o.land.Sound false := by
  refine ⟨?_, ?_, by simp [hLast]⟩
  · rw [hLast]
    rfl
  · have hAll := hSound.accepted_eq
    change o.queue.drop 1 = [] at hLast
    rw [hLast, List.append_nil] at hAll
    simp [Outbox.land, hLast, hAll]

end Outbox
