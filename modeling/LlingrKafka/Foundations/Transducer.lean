import Mathlib.Data.List.Induction
import Mathlib.Tactic.Common

/-!
# Transducers

A deterministic component that answers every input: a state and a total step that returns
the next state and an answer.  `after` is the state a list of inputs leads to and `trace`
the inputs with their answers.

`inv_after` is the run rule for invariants that speak about the whole history, and
`trace_of_idle` says that an input that leaves the state as it was leaves no mark on any
later answer.
-/

/-- A total step with an answer. -/
structure Transducer (σ ι ω : Type*) where
  step : σ → ι → σ × ω

namespace Transducer

variable {σ ι ω : Type*} (T : Transducer σ ι ω)

/-- The state after some inputs. -/
def after (s : σ) : List ι → σ
  | [] => s
  | a :: rest => after (T.step s a).1 rest

/-- The inputs, each with its answer. -/
def trace (s : σ) : List ι → List (ι × ω)
  | [] => []
  | a :: rest => (a, (T.step s a).2) :: trace (T.step s a).1 rest

variable {T} {s : σ}

theorem after_append (inputs later : List ι) :
    T.after s (inputs ++ later) = T.after (T.after s inputs) later := by
  induction inputs generalizing s with
  | nil => rfl
  | cons a inputs ih => exact ih

theorem trace_append (inputs later : List ι) :
    T.trace s (inputs ++ later) = T.trace s inputs ++ T.trace (T.after s inputs) later := by
  induction inputs generalizing s with
  | nil => rfl
  | cons a inputs ih => exact congrArg ((a, (T.step s a).2) :: ·) ih

theorem after_snoc (inputs : List ι) (a : ι) :
    T.after s (inputs ++ [a]) = (T.step (T.after s inputs) a).1 :=
  after_append inputs [a]

theorem trace_snoc (inputs : List ι) (a : ι) :
    T.trace s (inputs ++ [a]) =
      T.trace s inputs ++ [(a, (T.step (T.after s inputs) a).2)] :=
  trace_append inputs [a]

theorem map_fst_trace (inputs : List ι) : (T.trace s inputs).map Prod.fst = inputs := by
  induction inputs generalizing s with
  | nil => rfl
  | cons a inputs ih => exact congrArg (a :: ·) ih

/-- **Run rule.**  What holds of the start and is preserved by every step, whatever came
before it, holds after every run. -/
theorem inv_after {I : List (ι × ω) → σ → Prop} (hstart : I [] s)
    (hstep : ∀ past t a, I past t → I (past ++ [(a, (T.step t a).2)]) (T.step t a).1)
    (inputs : List ι) : I (T.trace s inputs) (T.after s inputs) := by
  induction inputs using List.reverseRecOn with
  | nil => exact hstart
  | append_singleton inputs a ih =>
      rw [trace_snoc, after_snoc]
      exact hstep _ _ a ih

/-- An input that leaves the state as it was can be dropped: all other answers stay. -/
theorem trace_of_idle {before : List ι} {a : ι}
    (hidle : (T.step (T.after s before) a).1 = T.after s before) (later : List ι) :
    ∃ rest, T.trace s (before ++ later) = T.trace s before ++ rest ∧
      T.trace s (before ++ a :: later) =
        T.trace s before ++ (a, (T.step (T.after s before) a).2) :: rest := by
  refine ⟨T.trace (T.after s before) later, trace_append before later, ?_⟩
  rw [trace_append, trace, hidle]

end Transducer
