import LlingrKafka.Foundations.Machine

/-!
# Simulation between machines

What an observer sees of a run is its `trace`: each step shows at most one event.
A `Simulation` matches every step of a concrete machine with steps of an abstract
one that show the same, so every trace of the concrete machine is one of the
abstract machine (`Simulation.run`).

When the abstract machine performs each operation in one step between its call
and its return, this is linearizability: the events are the calls and returns, and
the abstract run gives each operation its place in one sequential order.
-/

namespace Machine

variable {σ α τ β ε : Type*} {C : Machine σ α} {A : Machine τ β}
  {seeC : σ → α → Option ε} {seeA : τ → β → Option ε}

/-- What an observer sees of a run. -/
def trace (M : Machine σ α) (see : σ → α → Option ε) : σ → List α → List ε
  | _, [] => []
  | s, a :: rest => (see s a).toList ++ (M.next s a).elim [] fun t => M.trace see t rest

@[simp] theorem trace_nil (s : σ) : C.trace seeC s [] = [] := rfl

theorem trace_cons {s t : σ} {a : α} (hstep : C.next s a = some t) (rest : List α) :
    C.trace seeC s (a :: rest) = (seeC s a).toList ++ C.trace seeC t rest := by
  simp [trace, hstep]

theorem trace_append {s t : σ} {first : List α} (hfirst : C.exec s first = some t)
    (second : List α) :
    C.trace seeC s (first ++ second) = C.trace seeC s first ++ C.trace seeC t second := by
  induction first generalizing s with
  | nil =>
      rw [exec_nil, Option.some_inj] at hfirst
      subst hfirst
      rfl
  | cons a rest ih =>
      obtain ⟨u, hstep, hrest⟩ := exec_cons.mp hfirst
      rw [List.cons_append, trace_cons hstep, trace_cons hstep, ih hrest, List.append_assoc]

/-- The abstract machine can do something that shows `seen` and ends related to `s`. -/
def Answers (A : Machine τ β) (seeA : τ → β → Option ε) (R : σ → τ → Prop) (s : σ) (t : τ)
    (seen : Option ε) : Prop :=
  ∃ labels t', A.exec t labels = some t' ∧ A.trace seeA t labels = seen.toList ∧ R s t'

theorem answers_stay {R : σ → τ → Prop} {s : σ} {t : τ} {seen : Option ε} (hseen : seen = none)
    (h : R s t) : A.Answers seeA R s t seen :=
  ⟨[], t, rfl, by rw [hseen]; rfl, h⟩

theorem answers_step {R : σ → τ → Prop} {s : σ} {t t' : τ} {b : β} {seen : Option ε}
    (hstep : A.next t b = some t') (hseen : seeA t b = seen) (h : R s t') :
    A.Answers seeA R s t seen :=
  ⟨[b], t', exec_cons.mpr ⟨t', hstep, exec_nil t'⟩,
    by rw [trace_cons hstep, trace_nil, List.append_nil, hseen], h⟩

/-- `R` relates the start states, and every step is answered. -/
structure Simulation (C : Machine σ α) (A : Machine τ β) (seeC : σ → α → Option ε)
    (seeA : τ → β → Option ε) (R : σ → τ → Prop) : Prop where
  start : R C.start A.start
  step : ∀ s t a s', R s t → C.next s a = some s' → A.Answers seeA R s' t (seeC s a)

/-- **Simulation rule.**  Every run of the concrete machine shows what some run of
the abstract one shows, and ends related to it. -/
theorem Simulation.run {R : σ → τ → Prop} (hsim : Simulation C A seeC seeA R) {s s' : σ} {t : τ}
    {labels : List α} (hrel : R s t) (hrun : C.exec s labels = some s') :
    ∃ answer t', A.exec t answer = some t' ∧
      A.trace seeA t answer = C.trace seeC s labels ∧ R s' t' := by
  induction labels generalizing s t with
  | nil =>
      rw [exec_nil, Option.some_inj] at hrun
      exact ⟨[], t, rfl, rfl, hrun ▸ hrel⟩
  | cons a rest ih =>
      obtain ⟨u, hstep, hrest⟩ := exec_cons.mp hrun
      obtain ⟨first, v, hfirst, hseen, hrel'⟩ := hsim.step s t a u hrel hstep
      obtain ⟨second, w, hsecond, hseen', hlast⟩ := ih hrel' hrest
      refine ⟨first ++ second, w, exec_append.mpr ⟨v, hfirst, hsecond⟩, ?_, hlast⟩
      rw [trace_append hfirst, trace_cons hstep, hseen, hseen']

end Machine
