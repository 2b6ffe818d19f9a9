import Mathlib.Logic.Relation
import Mathlib.Data.List.Basic
import Mathlib.Data.Option.Basic

/-!
# Labelled machines and their runs

A `Machine` is a start state together with a partial step function on labels.
The labels carry every choice the environment makes, so a run is nothing but the
list of its labels and the step function stays executable.

`exec` plays a list of labels.  The two induction rules are stated once:

* `inv_of_exec`: a property every step preserves holds at the end of a run;
* `inv_of_guarded`: the same for the runs all of whose steps meet a guard, where
  the guard may read the state the step is taken from.

`Takes` says that a run passes through a given step.  It is how a statement
about what one party *did* during a run is phrased.
-/

/-- A start state and a partial step function on labels. -/
structure Machine (σ α : Type*) where
  start : σ
  next : σ → α → Option σ

namespace Machine

variable {σ α : Type*} {M : Machine σ α}

/-- Play a list of labels; `none` when some step is not enabled. -/
def exec (M : Machine σ α) : σ → List α → Option σ
  | s, [] => some s
  | s, a :: rest => (M.next s a).bind fun t => M.exec t rest

/-- The states some run ends in. -/
def Reachable (M : Machine σ α) (s : σ) : Prop :=
  ∃ labels, M.exec M.start labels = some s

/-- Every step the labels take from `s` meets the guard. -/
def Guarded (M : Machine σ α) (G : σ → α → Prop) : σ → List α → Prop
  | _, [] => True
  | s, a :: rest => G s a ∧ (M.next s a).elim True fun t => M.Guarded G t rest

instance Guarded.decidable {G : σ → α → Prop} [∀ s a, Decidable (G s a)] :
    ∀ (s : σ) (labels : List α), Decidable (M.Guarded G s labels)
  | _, [] => .isTrue trivial
  | s, a :: rest =>
      haveI : Decidable ((M.next s a).elim True fun t => M.Guarded G t rest) :=
        match M.next s a with
        | none => .isTrue trivial
        | some t => Guarded.decidable t rest
      inferInstanceAs (Decidable (_ ∧ _))

/-- The run of `labels` from `s` passes through the step `before -a→ after`. -/
def Takes (M : Machine σ α) (s : σ) (labels : List α) (before : σ) (a : α) (after : σ) : Prop :=
  ∃ earlier later, labels = earlier ++ a :: later ∧ M.exec s earlier = some before ∧
    M.next before a = some after

@[simp] theorem exec_nil (s : σ) : M.exec s [] = some s := rfl

theorem exec_cons {s : σ} {a : α} {rest : List α} {u : σ} :
    M.exec s (a :: rest) = some u ↔ ∃ t, M.next s a = some t ∧ M.exec t rest = some u := by
  simp [exec, Option.bind_eq_some_iff]

theorem exec_append {s u : σ} {first second : List α} :
    M.exec s (first ++ second) = some u ↔
      ∃ t, M.exec s first = some t ∧ M.exec t second = some u := by
  induction first generalizing s with
  | nil => simp
  | cons a rest ih =>
      rw [List.cons_append, exec_cons]
      constructor
      · rintro ⟨t, hstep, hrest⟩
        obtain ⟨v, hfirst, hsecond⟩ := ih.mp hrest
        exact ⟨v, exec_cons.mpr ⟨t, hstep, hfirst⟩, hsecond⟩
      · rintro ⟨v, hfirst, hsecond⟩
        obtain ⟨t, hstep, hrest⟩ := exec_cons.mp hfirst
        exact ⟨t, hstep, ih.mpr ⟨v, hrest, hsecond⟩⟩

theorem reachable_start (M : Machine σ α) : M.Reachable M.start := ⟨[], rfl⟩

theorem Reachable.exec {s t : σ} {labels : List α} (hs : M.Reachable s)
    (hrun : M.exec s labels = some t) : M.Reachable t := by
  obtain ⟨earlier, hearlier⟩ := hs
  exact ⟨earlier ++ labels, exec_append.mpr ⟨s, hearlier, hrun⟩⟩

theorem Reachable.next {s t : σ} {a : α} (hs : M.Reachable s) (hstep : M.next s a = some t) :
    M.Reachable t :=
  hs.exec (exec_cons.mpr ⟨t, hstep, exec_nil t⟩)

theorem Guarded.tail {G : σ → α → Prop} {s t : σ} {a : α} {rest : List α}
    (hguard : M.Guarded G s (a :: rest)) (hstep : M.next s a = some t) : M.Guarded G t rest := by
  simpa [hstep] using hguard.2

theorem Guarded.append {G : σ → α → Prop} {s t : σ} {first second : List α}
    (hguard : M.Guarded G s (first ++ second)) (hfirst : M.exec s first = some t) :
    M.Guarded G t second := by
  induction first generalizing s with
  | nil =>
      rw [exec_nil, Option.some_inj] at hfirst
      exact hfirst ▸ hguard
  | cons a rest ih =>
      obtain ⟨u, hstep, hrest⟩ := exec_cons.mp hfirst
      exact ih (hguard.tail hstep) hrest

theorem Guarded.of_append {G : σ → α → Prop} {s : σ} {first second : List α}
    (hguard : M.Guarded G s (first ++ second)) : M.Guarded G s first := by
  induction first generalizing s with
  | nil => trivial
  | cons a rest ih =>
      refine ⟨hguard.1, ?_⟩
      cases hstep : M.next s a with
      | none => trivial
      | some t => exact ih (hguard.tail hstep)

theorem guarded_of_forall {G : σ → α → Prop} (hguard : ∀ s a, G s a) (s : σ)
    (labels : List α) : M.Guarded G s labels := by
  induction labels generalizing s with
  | nil => trivial
  | cons a rest ih =>
      refine ⟨hguard s a, ?_⟩
      cases M.next s a with
      | none => trivial
      | some t => exact ih t

/-- **Run rule.**  A property that every guarded step preserves holds at the end
of every guarded run. -/
theorem inv_of_guarded {G : σ → α → Prop} {I : σ → Prop}
    (hstep : ∀ s a t, I s → G s a → M.next s a = some t → I t)
    {s t : σ} {labels : List α} (hs : I s) (hguard : M.Guarded G s labels)
    (hrun : M.exec s labels = some t) : I t := by
  induction labels generalizing s with
  | nil =>
      rw [exec_nil, Option.some_inj] at hrun
      exact hrun ▸ hs
  | cons a rest ih =>
      obtain ⟨u, hnext, hrest⟩ := exec_cons.mp hrun
      exact ih (hstep s a u hs hguard.1 hnext) (hguard.tail hnext) hrest

/-- The run rule without a guard. -/
theorem inv_of_exec {I : σ → Prop} (hstep : ∀ s a t, I s → M.next s a = some t → I t)
    {s t : σ} {labels : List α} (hs : I s) (hrun : M.exec s labels = some t) : I t :=
  inv_of_guarded (G := fun _ _ => True) (fun s a t hs _ => hstep s a t hs) hs
    (guarded_of_forall (fun _ _ => trivial) s labels) hrun

theorem inv_of_reachable {I : σ → Prop} (hstart : I M.start)
    (hstep : ∀ s a t, I s → M.next s a = some t → I t) {s : σ} (hs : M.Reachable s) :
    I s := by
  obtain ⟨labels, hrun⟩ := hs
  exact inv_of_exec hstep hstart hrun

/-- What a step of a run leads to: the rest of the run starts after it. -/
theorem Takes.exec_after {s u before after : σ} {a : α} {labels : List α}
    (htakes : M.Takes s labels before a after) (hrun : M.exec s labels = some u) :
    ∃ later, M.exec after later = some u := by
  obtain ⟨earlier, later, rfl, hearlier, hstep⟩ := htakes
  obtain ⟨v, hv, hrest⟩ := exec_append.mp hrun
  rw [hearlier, Option.some_inj] at hv
  subst hv
  obtain ⟨w, hw, hlater⟩ := exec_cons.mp hrest
  rw [hstep, Option.some_inj] at hw
  exact ⟨later, hw ▸ hlater⟩

theorem Takes.next {s before after : σ} {a : α} {labels : List α}
    (htakes : M.Takes s labels before a after) : M.next before a = some after := by
  obtain ⟨_, _, _, _, hstep⟩ := htakes
  exact hstep

theorem Takes.cons {s t before after : σ} {a b : α} {labels : List α} (hnext : M.next s b = some t)
    (htakes : M.Takes t labels before a after) : M.Takes s (b :: labels) before a after := by
  obtain ⟨earlier, later, rfl, hearlier, hstep⟩ := htakes
  exact ⟨b :: earlier, later, rfl, exec_cons.mpr ⟨t, hnext, hearlier⟩, hstep⟩

/-- What holds at the end of a run and not at its start becomes true at some step. -/
theorem exists_takes {P : σ → Prop} {s t : σ} {labels : List α} (hs : ¬ P s) (ht : P t)
    (hrun : M.exec s labels = some t) :
    ∃ before a after, M.Takes s labels before a after ∧ ¬ P before ∧ P after := by
  induction labels generalizing s with
  | nil =>
      rw [exec_nil, Option.some_inj] at hrun
      subst hrun
      exact absurd ht hs
  | cons b rest ih =>
      obtain ⟨u, hnext, hrest⟩ := exec_cons.mp hrun
      by_cases hu : P u
      · exact ⟨s, b, u, ⟨[], rest, rfl, rfl, hnext⟩, hs, hu⟩
      · obtain ⟨before, a, after, htakes, hbefore, hafter⟩ := ih hu hrest
        exact ⟨before, a, after, htakes.cons hnext, hbefore, hafter⟩

theorem Takes.reachable {before after : σ} {a : α} {labels : List α}
    (htakes : M.Takes M.start labels before a after) : M.Reachable before := by
  obtain ⟨earlier, _, _, hearlier, _⟩ := htakes
  exact ⟨earlier, hearlier⟩

end Machine
