import LlingrKafka.Foundations.Machine

/-!
# What a machine can still do

`CanReach` says that from a state some run leads to a given property.  Where it
holds of every reachable state, no run ever gets stuck short of the property: this
is how the absence of deadlocks is stated.

`canReach_of_rank` is the proof rule: while the property does not hold, some step
keeps the invariant and lowers a rank.
-/

namespace Machine

variable {σ α : Type*} {M : Machine σ α}

/-- Some run from `s` ends where `P` holds. -/
def CanReach (M : Machine σ α) (s : σ) (P : σ → Prop) : Prop :=
  ∃ labels t, M.exec s labels = some t ∧ P t

theorem canReach_here {s : σ} {P : σ → Prop} (h : P s) : M.CanReach s P := ⟨[], s, rfl, h⟩

theorem CanReach.after_step {s t : σ} {a : α} {P : σ → Prop} (hstep : M.next s a = some t)
    (h : M.CanReach t P) : M.CanReach s P := by
  obtain ⟨labels, u, hrun, hu⟩ := h
  exact ⟨a :: labels, u, exec_cons.mpr ⟨t, hstep, hrun⟩, hu⟩

/-- What can be reached first may be used to reach the rest. -/
theorem CanReach.trans {s : σ} {P Q : σ → Prop} (hreach : M.Reachable s) (h : M.CanReach s P)
    (hrest : ∀ t, M.Reachable t → P t → M.CanReach t Q) : M.CanReach s Q := by
  obtain ⟨first, t, hfirst, ht⟩ := h
  obtain ⟨second, u, hsecond, hu⟩ := hrest t (hreach.exec hfirst) ht
  exact ⟨first ++ second, u, exec_append.mpr ⟨t, hfirst, hsecond⟩, hu⟩

/-- **Progress rule.**  A step that keeps `I` and lowers the rank, as long as `P` does
not hold, leads to `P`. -/
theorem canReach_of_rank {I P : σ → Prop} (rank : σ → ℕ)
    (hstep : ∀ s, M.Reachable s → I s → ¬ P s →
      ∃ a t, M.next s a = some t ∧ (P t ∨ I t ∧ rank t < rank s))
    {s : σ} (hreach : M.Reachable s) (hs : I s) : M.CanReach s P := by
  induction hrank : rank s using Nat.strongRecOn generalizing s with
  | ind n ih =>
      by_cases hP : P s
      · exact canReach_here hP
      · obtain ⟨a, t, hnext, hPt | ⟨hI, hlt⟩⟩ := hstep s hreach hs hP
        · exact .after_step hnext (canReach_here hPt)
        · exact .after_step hnext (ih _ (hrank ▸ hlt) (hreach.next hnext) hI rfl)

end Machine
