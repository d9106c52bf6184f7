import Mathlib.Data.List.Basic

/-
  Programs over a durable store, one call after another.

  Every call that is carried out is there to stay; a call
  that fails changes nothing.  A program may be cut off
  between any two calls, and then leaves the store as the
  calls before that made it.  `wp` is the weakest
  precondition for what holds when the program is done, when
  it fails and wherever it may be cut off.

  Main declarations:
    * `Durable.Script`, `Durable.Engine`
    * `Durable.Script.run`, `Durable.Script.Leaves`
    * `Durable.Script.wp`, `Durable.Script.wp_bind`
    * `Durable.Script.wp_run`, `Durable.Script.wp_leaves`,
      `Durable.Script.leaves_of_run`
-/

namespace Durable

------------------------------------------------------------
-- Scripts
------------------------------------------------------------

/- What is left to do; a call goes on with its reply. -/
inductive Script
    (Op : Type)
    (Reply : Op → Type)
    (Failure α : Type) : Type
  | pure (a : α)
  | fail (failure : Failure)
  | call
      (op : Op)
      (next : Reply op → Script Op Reply Failure α)

/- What a call replies and makes of the store. -/
def Engine
    (Store Op : Type)
    (Reply : Op → Type)
    (Failure : Type) : Type :=
  (op : Op) → Store → Except Failure (Reply op × Store)

variable {Store Op Failure α β : Type}
variable {Reply : Op → Type}
variable {engine : Engine Store Op Reply Failure}

namespace Script

def bind
    (f : α → Script Op Reply Failure β) :
    Script Op Reply Failure α → Script Op Reply Failure β
| .pure a => f a
| .fail failure => .fail failure
| .call op next => .call op fun reply => bind f (next reply)

instance : Monad (Script Op Reply Failure) where
  pure := .pure
  bind script f := bind f script

/- One call. -/
def perform
    (op : Op) : Script Op Reply Failure (Reply op) :=
  .call op .pure

------------------------------------------------------------
-- Runs
------------------------------------------------------------

/- The result and the store of a script that is not cut off. -/
def run
    (engine : Engine Store Op Reply Failure) :
    Script Op Reply Failure α → Store →
      Except Failure α × Store
| .pure a, s => (.ok a, s)
| .fail failure, s => (.error failure, s)
| .call op next, s =>
    match engine op s with
    | .ok (reply, t) => run engine (next reply) t
    | .error failure => (.error failure, s)

/- A script that is cut off somewhere may leave this store. -/
inductive Leaves
    (engine : Engine Store Op Reply Failure) :
    Script Op Reply Failure α → Store → Store → Prop
  | here
      (script : Script Op Reply Failure α)
      (s : Store) :
      Leaves engine script s s
  | later
      {op : Op}
      {next : Reply op → Script Op Reply Failure α}
      {s t u : Store}
      {reply : Reply op}
      (hCall : engine op s = .ok (reply, t))
      (hRest : Leaves engine (next reply) t u) :
      Leaves engine (.call op next) s u

------------------------------------------------------------
-- Weakest Preconditions
------------------------------------------------------------

/-
  From `s`, the script ends in `Done` or in `Failed` and is
  `Safe` to cut off on the way.
-/
def wp
    (engine : Engine Store Op Reply Failure)
    (Failed : Failure → Store → Prop)
    (Safe : Store → Prop) :
    Script Op Reply Failure α → (α → Store → Prop) →
      Store → Prop
| .pure a, Done, s => Safe s ∧ Done a s
| .fail failure, _, s => Safe s ∧ Failed failure s
| .call op next, Done, s =>
    Safe s ∧
      match engine op s with
      | .ok (reply, t) => wp engine Failed Safe (next reply) Done t
      | .error failure => Failed failure s

variable {Failed : Failure → Store → Prop}
variable {Safe : Store → Prop}
variable {Done : α → Store → Prop}
variable {s t : Store}

theorem wp_call
    {op : Op}
    {next : Reply op → Script Op Reply Failure α} :
    wp engine Failed Safe (.call op next) Done s ↔
      Safe s ∧
        (∀ reply t, engine op s = .ok (reply, t) →
          wp engine Failed Safe (next reply) Done t) ∧
        ∀ failure, engine op s = .error failure →
          Failed failure s := by
  rw [wp]
  cases engine op s with
  | error failure => simp
  | ok result =>
      rcases result with ⟨reply, t⟩
      simp [Prod.ext_iff]

/- It is safe to be cut off before the first call. -/
theorem wp_safe
    {script : Script Op Reply Failure α}
    (hPre : wp engine Failed Safe script Done s) :
    Safe s := by
  cases script with
  | pure a => exact hPre.1
  | fail failure => exact hPre.1
  | call op next => exact (wp_call.mp hPre).1

theorem wp_pure
    {a : α}
    (hSafe : Safe s)
    (hDone : Done a s) :
    wp engine Failed Safe
      (Pure.pure a : Script Op Reply Failure α) Done s :=
  ⟨hSafe, hDone⟩

/- A call that is carried out. -/
theorem wp_perform
    {op : Op}
    {reply : Reply op}
    {Done : Reply op → Store → Prop}
    (hSafe : Safe s)
    (hCall : engine op s = .ok (reply, t))
    (hAfter : Safe t)
    (hDone : Done reply t) :
    wp engine Failed Safe (perform op) Done s := by
  refine wp_call.mpr ⟨hSafe, ?_, ?_⟩
  · intro other u hOther
    cases hCall.symm.trans hOther
    exact ⟨hAfter, hDone⟩
  · intro failure hError
    cases hCall.symm.trans hError

/- A call that fails. -/
theorem wp_perform_error
    {op : Op}
    {failure : Failure}
    {Done : Reply op → Store → Prop}
    (hSafe : Safe s)
    (hCall : engine op s = .error failure)
    (hFailed : Failed failure s) :
    wp engine Failed Safe (perform op) Done s := by
  refine wp_call.mpr ⟨hSafe, ?_, ?_⟩
  · intro reply t hOk
    cases hCall.symm.trans hOk
  · intro other hError
    cases hCall.symm.trans hError
    exact hFailed

/- One script after another. -/
theorem wp_bind
    {script : Script Op Reply Failure α}
    {f : α → Script Op Reply Failure β}
    {Done : β → Store → Prop}
    (hFirst : wp engine Failed Safe script
      (fun a t => wp engine Failed Safe (f a) Done t) s) :
    wp engine Failed Safe (script >>= f) Done s := by
  change wp engine Failed Safe (bind f script) Done s
  induction script generalizing s with
  | pure a => exact hFirst.2
  | fail failure => exact hFirst
  | call op next ih =>
      rcases wp_call.mp hFirst with ⟨hSafe, hNext, hFail⟩
      refine wp_call.mpr ⟨hSafe, ?_, hFail⟩
      intro reply t hOk
      exact ih reply (hNext reply t hOk)

/- What a precondition is for: the result of a run. -/
theorem wp_run
    {script : Script Op Reply Failure α}
    (hPre : wp engine Failed Safe script Done s) :
    match run engine script s with
    | (.ok a, t) => Done a t
    | (.error failure, t) => Failed failure t := by
  induction script generalizing s with
  | pure a => exact hPre.2
  | fail failure => exact hPre.2
  | call op next ih =>
      rcases wp_call.mp hPre with ⟨_, hNext, hFail⟩
      cases hEngine : engine op s with
      | error failure =>
          simp only [run, hEngine]
          exact hFail failure hEngine
      | ok result =>
          rcases result with ⟨reply, t⟩
          simp only [run, hEngine]
          exact ih reply (hNext reply t hEngine)

/- And whatever a script leaves that is cut off. -/
theorem wp_leaves
    {script : Script Op Reply Failure α}
    (hPre : wp engine Failed Safe script Done s)
    (hLeaves : Leaves engine script s t) :
    Safe t := by
  induction hLeaves with
  | here script s => exact wp_safe hPre
  | later hCall hRest ih =>
      rcases wp_call.mp hPre with ⟨_, hNext, _⟩
      exact ih (hNext _ _ hCall)

/- A script that was not cut off left the store it ended in. -/
theorem leaves_of_run
    {script : Script Op Reply Failure α}
    {result : Except Failure α}
    (hRun : run engine script s = (result, t)) :
    Leaves engine script s t := by
  induction script generalizing s with
  | pure a =>
      cases hRun
      exact .here _ _
  | fail failure =>
      cases hRun
      exact .here _ _
  | call op next ih =>
      unfold run at hRun
      split at hRun
      · rename_i reply mid hCall
        exact .later hCall (ih reply hRun)
      · cases hRun
        exact .here _ _

end Script

end Durable
