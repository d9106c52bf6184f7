import Mathlib.Algebra.Order.BigOperators.Group.List
import Mathlib.Algebra.Order.Ring.Nat

/-
  Runs of a machine whose step may fail, and the rules by
  which facts about one step become facts about a run.

  A run carries the pairs of a state and the event taken
  there, so that a condition can be put on its steps.

  Main declarations:
    * `Transition.Run`
    * `Transition.Run.invariant`,
      `Transition.Run.invariant_of_history`,
      `Transition.Run.invariant_of_mem`
    * `Transition.Run.lockstep`, `Transition.Run.potential`
    * `Transition.exec_run`, `Transition.exists_run_of_passes`
-/

------------------------------------------------------------
-- Runs
------------------------------------------------------------

namespace Transition

variable {State Label Failure : Type}

/-
  `Run step s trace t`: from `s`, taking the steps recorded
  in `trace` (oldest first), the machine arrives at `t`.
-/
inductive Run
    (step : State → Label → Except Failure State)
    (s : State) :
    List (State × Label) → State → Prop
  | nil : Run step s [] s
  | snoc
      {trace : List (State × Label)}
      {t u : State}
      {e : Label}
      (prior : Run step s trace t)
      (hStep : step t e = .ok u) :
      Run step s (trace ++ [(t, e)]) u

variable {step : State → Label → Except Failure State}

/- A run continued by a run is a run. -/
theorem Run.append
    {s t u : State}
    {first second : List (State × Label)}
    (hFirst : Run step s first t)
    (hSecond : Run step t second u) :
    Run step s (first ++ second) u := by
  induction hSecond with
  | nil =>
      simpa using hFirst
  | snoc _ hStep ih =>
      rw [← List.append_assoc]
      exact Run.snoc ih hStep

/- A run that a step comes before. -/
theorem Run.cons
    {s t u : State}
    {e : Label}
    {trace : List (State × Label)}
    (hStep : step s e = .ok t)
    (run : Run step t trace u) :
    Run step s ((s, e) :: trace) u := by
  have hFirst : Run step s ([] ++ [(s, e)]) t :=
    Run.snoc Run.nil hStep
  exact hFirst.append run

/-
  The invariant rule: what holds at the start and is kept by
  each step that meets a condition holds after every run
  whose steps all meet it.
-/
theorem Run.invariant
    {Inv : State → Prop}
    {Cond : State → Label → Prop}
    (hKeep : ∀ s e t,
      Inv s → Cond s e → step s e = .ok t → Inv t)
    {s t : State}
    {trace : List (State × Label)}
    (run : Run step s trace t)
    (hCond : ∀ p ∈ trace, Cond p.1 p.2)
    (hStart : Inv s) :
    Inv t := by
  induction run with
  | nil => exact hStart
  | snoc _ hStep ih =>
      have hPrior := ih (fun p hp =>
        hCond p (List.mem_append_left _ hp))
      exact hKeep _ _ _ hPrior
        (hCond (_, _) (by simp)) hStep

/- The invariant rule when no condition is put on steps. -/
theorem Run.invariant_of_step
    {Inv : State → Prop}
    (hKeep : ∀ s e t, Inv s → step s e = .ok t → Inv t)
    {s t : State}
    {trace : List (State × Label)}
    (run : Run step s trace t)
    (hStart : Inv s) :
    Inv t :=
  Run.invariant
    (fun s e t hInv (_ : True) => hKeep s e t hInv)
    run (fun _ _ => trivial) hStart

/- The invariant rule for what speaks of the steps taken. -/
theorem Run.invariant_of_history
    {Inv : List (State × Label) → State → Prop}
    (hKeep : ∀ trace s e t, Inv trace s → step s e = .ok t →
      Inv (trace ++ [(s, e)]) t)
    {s t : State}
    {trace : List (State × Label)}
    (run : Run step s trace t)
    (hStart : Inv [] s) :
    Inv trace t := by
  induction run with
  | nil => exact hStart
  | snoc _ hStep ih => exact hKeep _ _ _ _ ih hStep

/- An invariant holds wherever a run took a step. -/
theorem Run.invariant_of_mem
    {Inv : State → Prop}
    (hKeep : ∀ s e t, Inv s → step s e = .ok t → Inv t)
    {s t : State}
    {trace : List (State × Label)}
    (run : Run step s trace t)
    (hStart : Inv s)
    {p : State × Label}
    (hMem : p ∈ trace) :
    Inv p.1 := by
  induction run with
  | nil => simp at hMem
  | snoc prior _ ih =>
      rcases List.mem_append.mp hMem with hPrior | hLast
      · exact ih hPrior
      · rw [List.mem_singleton.mp hLast]
        exact prior.invariant_of_step hKeep hStart

/- A step that a run took is one the machine takes. -/
theorem Run.ok_of_mem
    {s t : State}
    {trace : List (State × Label)}
    (run : Run step s trace t)
    {p : State × Label}
    (hMem : p ∈ trace) :
    ∃ u, step p.1 p.2 = .ok u := by
  induction run with
  | nil => simp at hMem
  | snoc _ hStep ih =>
      rcases List.mem_append.mp hMem with hPrior | hLast
      · exact ih hPrior
      · rw [List.mem_singleton.mp hLast]
        exact ⟨_, hStep⟩

/- The first step of a run that has one. -/
theorem Run.first_step
    {s t : State}
    {trace : List (State × Label)}
    (run : Run step s trace t) :
    (trace = [] ∧ t = s) ∨
      ∃ e u rest,
        trace = (s, e) :: rest ∧ step s e = .ok u ∧
          Run step u rest t := by
  induction run with
  | nil => exact Or.inl ⟨rfl, rfl⟩
  | @snoc before v w e prior hStep ih =>
      rcases ih with ⟨rfl, rfl⟩ | ⟨e', u, rest, rfl, hFirst,
        hRest⟩
      · exact Or.inr ⟨e, w, [], rfl, hStep, Run.nil⟩
      · exact Or.inr ⟨e', u, rest ++ [(v, e)], rfl, hFirst,
          Run.snoc hRest hStep⟩

/- The labels of a trace that come from outside. -/
def callsOf
    (isCall : Label → Bool)
    (trace : List (State × Label)) : List Label :=
  (trace.map Prod.snd).filter isCall

/-
  The lockstep rule.  A machine is called from outside when
  it rests and goes on by itself otherwise.  A relation of
  two states that is kept when both take a step, on the same
  call or on none, then holds after two runs that end at
  rest and took the same calls.
-/
theorem Run.lockstep
    {Rel : State → State → Prop}
    {Cond Rests : State → Prop}
    {isCall : Label → Bool}
    (hKeep : ∀ s t e e' s' t', Rel s t → Cond s → Cond t →
      (isCall e = true → e' = e) → isCall e' = isCall e →
      step s e = .ok s' → step t e' = .ok t' → Rel s' t')
    (hCalled : ∀ s e s', Cond s → step s e = .ok s' →
      (isCall e = true ↔ Rests s))
    (hRests : ∀ s t, Rel s t → (Rests s ↔ Rests t))
    {s t s' t' : State}
    {trace others : List (State × Label)}
    (first : Run step s trace s')
    (second : Run step t others t')
    (hCalls : callsOf isCall others = callsOf isCall trace)
    (hCond : ∀ p ∈ trace, Cond p.1)
    (hCond' : ∀ p ∈ others, Cond p.1)
    (hEnd : Rests s')
    (hEnd' : Rests t')
    (hStart : Rel s t) :
    Rel s' t' := by
  induction trace generalizing s t others with
  | nil =>
      rcases first.first_step with ⟨_, rfl⟩ | ⟨_, _, _, h, _⟩
      swap
      · cases h
      rcases second.first_step with
        ⟨_, rfl⟩ | ⟨e', u', rest', rfl, hStep', _⟩
      · exact hStart
      · -- The second machine rests too, so `e'` is a call.
        have hCall := (hCalled t e' u'
          (hCond' _ (List.mem_cons_self ..)) hStep').mpr
          ((hRests _ _ hStart).mp hEnd)
        simp [callsOf, hCall] at hCalls
  | cons x trace ih =>
      rcases first.first_step with
        ⟨h, _⟩ | ⟨e, u, rest, hTrace, hStep, hRest⟩
      · cases h
      cases hTrace
      have hHere := hCond _ (List.mem_cons_self ..)
      have hKind := hCalled s e u hHere hStep
      rcases second.first_step with
        ⟨rfl, rfl⟩ | ⟨e', u', rest', rfl, hStep', hRest'⟩
      · -- The second machine is at its end, so `e` is a call.
        have hCall := hKind.mpr ((hRests _ _ hStart).mpr hEnd')
        simp [callsOf, hCall] at hCalls
      · have hHere' := hCond' _ (List.mem_cons_self ..)
        have hKind' := hCalled t e' u' hHere' hStep'
        have hSame : isCall e' = isCall e := by
          rw [Bool.eq_iff_iff, hKind, hKind']
          exact (hRests _ _ hStart).symm
        have hParts : (isCall e = true → e' = e) ∧
            callsOf isCall rest' = callsOf isCall trace := by
          unfold callsOf at hCalls ⊢
          cases hCall : isCall e with
          | false => simpa [hSame, hCall] using hCalls
          | true => simpa [hSame, hCall] using hCalls
        exact ih hRest hRest' hParts.2
          (fun p hp => hCond p (List.mem_cons_of_mem _ hp))
          (fun p hp => hCond' p (List.mem_cons_of_mem _ hp))
          (hKeep s t e e' u u' hStart hHere hHere' hParts.1
            hSame hStep hStep')

/-
  The potential rule: when each step lowers a quantity by
  its own loss, a run lowers it by the sum of the losses.
-/
theorem Run.potential
    {Inv : State → Prop}
    {value : State → Nat}
    {loss : State → Label → Nat}
    (hKeep : ∀ s e t, Inv s → step s e = .ok t → Inv t)
    (hLoss : ∀ s e t, Inv s → step s e = .ok t →
      value t + loss s e = value s)
    {s t : State}
    {trace : List (State × Label)}
    (run : Run step s trace t)
    (hStart : Inv s) :
    value t + (trace.map (fun p => loss p.1 p.2)).sum =
      value s := by
  induction run with
  | nil => simp
  | snoc prior hStep ih =>
      have hInv := prior.invariant_of_step hKeep hStart
      have hHere := hLoss _ _ _ hInv hStep
      simp only [List.map_append, List.map_cons,
        List.map_nil, List.sum_append, List.sum_cons,
        List.sum_nil]
      omega

------------------------------------------------------------
-- Executing a Run
------------------------------------------------------------

/- Take a list of events one after another. -/
def exec
    (step : State → Label → Except Failure State)
    (s : State) :
    List Label → Except Failure State
| [] => .ok s
| e :: es =>
    match step s e with
    | .ok t => exec step t es
    | .error failure => .error failure

/- The steps that `exec` takes. -/
def execTrace
    (step : State → Label → Except Failure State)
    (s : State) :
    List Label → List (State × Label)
| [] => []
| e :: es =>
    match step s e with
    | .ok t => (s, e) :: execTrace step t es
    | .error _ => [(s, e)]

/- What `exec` computes is a run. -/
theorem exec_run
    {s t : State}
    {events : List Label}
    (hExec : exec step s events = .ok t) :
    Run step s (execTrace step s events) t := by
  induction events generalizing s with
  | nil =>
      cases hExec
      exact Run.nil
  | cons e es ih =>
      cases hStep : step s e with
      | error failure =>
          simp [exec, hStep] at hExec
      | ok u =>
          have hRest : exec step u es = .ok t := by
            simpa [exec, hStep] using hExec
          simpa [execTrace, hStep] using
            Run.cons hStep (ih hRest)

theorem execTrace_events
    {s t : State}
    {events : List Label}
    (hExec : exec step s events = .ok t) :
    (execTrace step s events).map Prod.snd = events := by
  induction events generalizing s with
  | nil => rfl
  | cons e es ih =>
      cases hStep : step s e with
      | error failure =>
          simp [exec, hStep] at hExec
      | ok u =>
          have hRest : exec step u es = .ok t := by
            simpa [exec, hStep] using hExec
          simp [execTrace, hStep, ih hRest]

/-
  Whether `exec` gets through a list of events, and the run
  it takes passes a test.
-/
def passes
    (step : State → Label → Except Failure State)
    (s : State)
    (events : List Label)
    (test : List (State × Label) → State → Bool) : Bool :=
  match exec step s events with
  | .ok t => test (execTrace step s events) t
  | .error _ => false

/- A test that is passed is passed by a run on these events. -/
theorem exists_run_on_of_passes
    {s : State}
    {events : List Label}
    {test : List (State × Label) → State → Bool}
    (hPasses : passes step s events test = true) :
    ∃ trace t, Run step s trace t ∧
      trace.map Prod.snd = events ∧ test trace t = true := by
  unfold passes at hPasses
  cases hExec : exec step s events with
  | error failure => simp [hExec] at hPasses
  | ok t =>
      rw [hExec] at hPasses
      exact ⟨_, t, exec_run hExec, execTrace_events hExec,
        hPasses⟩

/- And for one event alone. -/
theorem exists_step_of_passes
    {s : State}
    {e : Label}
    {test : List (State × Label) → State → Bool}
    (hPasses : passes step s [e] test = true) :
    ∃ t, step s e = .ok t ∧ test [(s, e)] t = true := by
  unfold passes at hPasses
  cases hStep : step s e with
  | error failure => simp [exec, hStep] at hPasses
  | ok t =>
      refine ⟨t, rfl, ?_⟩
      simpa [exec, execTrace, hStep] using hPasses

theorem exists_run_of_passes
    {s : State}
    {events : List Label}
    {test : List (State × Label) → State → Bool}
    (hPasses : passes step s events test = true) :
    ∃ trace t, Run step s trace t ∧ test trace t = true := by
  rcases exists_run_on_of_passes hPasses with
    ⟨trace, t, run, _, hTest⟩
  exact ⟨trace, t, run, hTest⟩

end Transition
