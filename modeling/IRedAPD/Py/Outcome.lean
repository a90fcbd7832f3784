/-
  Effects that may raise: what a piece of imperative code leaves behind, what it
  has done that can be observed, and whether it ended in an exception.

  `Outcome.andThen` runs one piece after another, an exception cutting the rest
  off, and `Outcome.run` feeds a list of inputs to a step function.  A run over
  `xs ++ ys` is the run over `xs` followed by the run over `ys` (`run_append`),
  and an invariant of the steps is an invariant of the run (`run_induction`).
-/
import Mathlib.Data.List.Basic
import Mathlib.Tactic.Common

namespace Py

/-- The state some code leaves, the events it emitted, and whether it raised. -/
structure Outcome (σ ε : Type*) where
  state : σ
  events : List ε
  raised : Bool

namespace Outcome

variable {σ τ ε ι : Type*}

/-- Code that only changes the state. -/
def pure (s : σ) : Outcome σ ε := ⟨s, [], false⟩

/-- Code followed by more code, which an exception cuts off. -/
def andThen (o : Outcome σ ε) (f : σ → Outcome σ ε) : Outcome σ ε :=
  if o.raised then o
  else ⟨(f o.state).state, o.events ++ (f o.state).events, (f o.state).raised⟩

/-- The same code seen as acting on a part of a larger state. -/
def mapState (g : σ → τ) (o : Outcome σ ε) : Outcome τ ε := ⟨g o.state, o.events, o.raised⟩

@[simp] theorem mapState_state (g : σ → τ) (o : Outcome σ ε) :
    (o.mapState g).state = g o.state := rfl

@[simp] theorem mapState_events (g : σ → τ) (o : Outcome σ ε) :
    (o.mapState g).events = o.events := rfl

@[simp] theorem mapState_raised (g : σ → τ) (o : Outcome σ ε) :
    (o.mapState g).raised = o.raised := rfl

@[simp] theorem pure_andThen (s : σ) (f : σ → Outcome σ ε) : (pure s).andThen f = f s := by
  simp [pure, andThen]

@[simp] theorem andThen_pure (o : Outcome σ ε) : o.andThen pure = o := by
  unfold andThen
  split
  · rfl
  · next h =>
    have hr : o.raised = false := by simpa using h
    simp [pure, ← hr]

theorem andThen_assoc (o : Outcome σ ε) (f g : σ → Outcome σ ε) :
    (o.andThen f).andThen g = o.andThen fun s => (f s).andThen g := by
  unfold andThen
  by_cases ho : o.raised = true
  · simp [ho]
  · by_cases hf : (f o.state).raised = true <;> simp [ho, hf]

/-- Feeding inputs to a step function until one raises. -/
def run (step : σ → ι → Outcome σ ε) (s : σ) : List ι → Outcome σ ε
  | [] => pure s
  | i :: is => (step s i).andThen fun s' => run step s' is

@[simp] theorem run_nil (step : σ → ι → Outcome σ ε) (s : σ) : run step s [] = pure s := rfl

theorem run_cons (step : σ → ι → Outcome σ ε) (s : σ) (i : ι) (is : List ι) :
    run step s (i :: is) = (step s i).andThen fun s' => run step s' is := rfl

theorem run_append (step : σ → ι → Outcome σ ε) (s : σ) (is js : List ι) :
    run step s (is ++ js) = (run step s is).andThen fun s' => run step s' js := by
  induction is generalizing s with
  | nil => simp
  | cons i is ih => simp only [List.cons_append, run_cons, ih, andThen_assoc]

/-- A run raises nothing exactly when its beginning and its last step do not. -/
theorem run_concat_raised (step : σ → ι → Outcome σ ε) (s : σ) (is : List ι) (i : ι) :
    (run step s (is ++ [i])).raised = false ↔
      (run step s is).raised = false ∧ (step (run step s is).state i).raised = false := by
  rw [run_append, andThen]
  cases h : (run step s is).raised with
  | true => simp [h]
  | false => simp [run_cons, run_nil]

/-- A property of the state that every step keeps holds at the end of every run. -/
theorem run_invariant {step : σ → ι → Outcome σ ε} (inv : σ → Prop)
    (hstep : ∀ s i, inv s → inv (step s i).state) {s : σ} (hs : inv s) (is : List ι) :
    inv (run step s is).state := by
  induction is generalizing s with
  | nil => exact hs
  | cons i is ih =>
    rw [run_cons, andThen]
    split_ifs
    · exact hstep s i hs
    · exact ih (hstep s i hs)

/-- **The invariant rule for runs.** A property of the inputs so far and the state that every step
keeps which does not raise holds at the end of a run that does not raise. -/
theorem run_induction {step : σ → ι → Outcome σ ε} (inv : List ι → σ → Prop)
    (hstep : ∀ before s i, inv before s → (step s i).raised = false →
      inv (before ++ [i]) (step s i).state)
    {before is : List ι} {s : σ} (hs : inv before s) (hrun : (run step s is).raised = false) :
    inv (before ++ is) (run step s is).state := by
  induction is generalizing before s with
  | nil =>
    rw [List.append_nil]
    exact hs
  | cons i is ih =>
    rw [run_cons] at hrun ⊢
    unfold andThen at hrun ⊢
    cases hr : (step s i).raised with
    | true =>
      rw [hr, if_pos rfl, hr] at hrun
      cases hrun
    | false =>
      rw [hr, if_neg Bool.false_ne_true] at hrun
      rw [if_neg Bool.false_ne_true, List.append_cons]
      exact ih (hstep before s i hs hr) hrun

end Outcome

end Py
