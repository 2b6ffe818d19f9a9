import LlingrKafka.Foundations.Machine
import Mathlib.Logic.Function.Basic

/-!
# Interleaved threads over shared memory

A `Program` gives the code of one thread: an atomic step reads and writes the
shared memory `γ` and the thread's own local state `ℓ`, and nothing else.  Its
machine interleaves any number of threads in any order; the thread identifiers
`ι` are arbitrary.

The proof rule is `inv_of_own_and_others`.  It needs a global invariant on the
shared memory and one assertion for each thread, and it asks for two facts about
a step: the thread that takes it re-establishes the invariant and its own
assertion (`own`), and it does not break the assertion of any other thread
(`others`).  No reasoning about pairs of program counters is left.

What one thread owns at a time (a lock, a role) is an optional thread; `eq_of_owner` and
`not_owner` say what the others know of it.
-/

/-- The code of one thread. -/
structure Program (ι γ ℓ α : Type*) where
  shared : γ
  fresh : ℓ
  step : ι → γ → ℓ → α → Option (γ × ℓ)

/-- Shared memory and the local state of every thread. -/
structure Config (ι γ ℓ : Type*) where
  shared : γ
  threads : ι → ℓ

namespace Program

variable {ι γ ℓ α : Type*} [DecidableEq ι] {P : Program ι γ ℓ α}

/-- The interleaving machine: a label names the thread that moves. -/
def machine (P : Program ι γ ℓ α) : Machine (Config ι γ ℓ) (ι × α) where
  start := ⟨P.shared, fun _ => P.fresh⟩
  next c a := (P.step a.1 c.shared (c.threads a.1) a.2).map fun r =>
    ⟨r.1, Function.update c.threads a.1 r.2⟩

/-- Everything a step of the interleaving does. -/
theorem next_eq_some {c d : Config ι γ ℓ} {t : ι} {a : α}
    (h : P.machine.next c (t, a) = some d) :
    P.step t c.shared (c.threads t) a = some (d.shared, d.threads t) ∧
      ∀ u, u ≠ t → d.threads u = c.threads u := by
  simp only [machine, Option.map_eq_some_iff] at h
  obtain ⟨⟨shared, own⟩, hstep, rfl⟩ := h
  refine ⟨by simpa using hstep, fun u hu => ?_⟩
  simp [Function.update_of_ne hu]

theorem next_of_step {c : Config ι γ ℓ} {t : ι} {a : α} {shared : γ} {own : ℓ}
    (h : P.step t c.shared (c.threads t) a = some (shared, own)) :
    P.machine.next c (t, a) = some ⟨shared, Function.update c.threads t own⟩ := by
  simp [machine, h]

/-- The configuration a step of `t` leads to. -/
theorem exists_next {c : Config ι γ ℓ} {t : ι} {a : α} {shared : γ} {own : ℓ}
    (h : P.step t c.shared (c.threads t) a = some (shared, own)) :
    ∃ d, P.machine.next c (t, a) = some d ∧ d.shared = shared ∧ d.threads t = own ∧
      ∀ u, u ≠ t → d.threads u = c.threads u :=
  ⟨_, next_of_step h, rfl, Function.update_self .., fun _ hu => Function.update_of_ne hu ..⟩

/-- The invariant of the shared memory together with the assertion of every thread. -/
def Holds (I : γ → Prop) (A : ι → γ → ℓ → Prop) (c : Config ι γ ℓ) : Prop :=
  I c.shared ∧ ∀ t, A t c.shared (c.threads t)

/-- What thread `t` does when no other thread moves. -/
def solo (P : Program ι γ ℓ α) (t : ι) : γ → ℓ → List α → Option (γ × ℓ)
  | g, l, [] => some (g, l)
  | g, l, a :: rest => (P.step t g l a).bind fun r => P.solo t r.1 r.2 rest

/-- A thread that moves alone is a run of the interleaving. -/
theorem exec_of_solo {t : ι} {moves : List α} {c : Config ι γ ℓ} {g : γ} {l : ℓ}
    (h : P.solo t c.shared (c.threads t) moves = some (g, l)) :
    ∃ d, P.machine.exec c (moves.map fun a => (t, a)) = some d ∧ d.shared = g ∧
      d.threads t = l := by
  induction moves generalizing c with
  | nil =>
      obtain ⟨rfl, rfl⟩ := Prod.mk.inj (Option.some_inj.mp h)
      exact ⟨c, rfl, rfl, rfl⟩
  | cons a rest ih =>
      obtain ⟨⟨shared, own⟩, hstep, hrest⟩ := Option.bind_eq_some_iff.mp h
      have hrest : P.solo t shared (Function.update c.threads t own t) rest = some (g, l) := by
        rwa [Function.update_self]
      obtain ⟨d, hrun, hd⟩ := @ih ⟨shared, Function.update c.threads t own⟩ hrest
      exact ⟨d, Machine.exec_cons.mpr ⟨_, next_of_step hstep, hrun⟩, hd⟩

variable {I : γ → Prop} {A : ι → γ → ℓ → Prop} {G : ι → γ → ℓ → α → Prop}

/-- A guard on a thread's step, read on whole configurations. -/
def guardOn (G : ι → γ → ℓ → α → Prop) (c : Config ι γ ℓ) (a : ι × α) : Prop :=
  G a.1 c.shared (c.threads a.1) a.2

instance [∀ t g l a, Decidable (G t g l a)] (c : Config ι γ ℓ) (a : ι × α) :
    Decidable (guardOn G c a) :=
  inferInstanceAs (Decidable (G _ _ _ _))

/-- One step of the interleaving keeps the invariant and every assertion. -/
theorem holds_step
    (own : ∀ t g l a g' l', I g → A t g l → G t g l a →
      P.step t g l a = some (g', l') → I g' ∧ A t g' l')
    (others : ∀ t u g l m a g' l', u ≠ t → I g → A t g l → A u g m → G t g l a →
      P.step t g l a = some (g', l') → A u g' m)
    {c d : Config ι γ ℓ} {a : ι × α} (hc : Holds I A c) (hguard : guardOn G c a)
    (hnext : P.machine.next c a = some d) : Holds I A d := by
  obtain ⟨t, a⟩ := a
  obtain ⟨hstep, hrest⟩ := next_eq_some hnext
  have hown := own t _ _ a _ _ hc.1 (hc.2 t) hguard hstep
  refine ⟨hown.1, fun u => ?_⟩
  rcases eq_or_ne u t with rfl | hu
  · exact hown.2
  · rw [hrest u hu]
    exact others t u _ _ _ a _ _ hu hc.1 (hc.2 t) (hc.2 u) hguard hstep

/-- **Thread-modular rule.**  A step that keeps the invariant and its own
assertion, and disturbs no other thread's, keeps them all along every guarded run. -/
theorem inv_of_own_and_others
    (own : ∀ t g l a g' l', I g → A t g l → G t g l a →
      P.step t g l a = some (g', l') → I g' ∧ A t g' l')
    (others : ∀ t u g l m a g' l', u ≠ t → I g → A t g l → A u g m → G t g l a →
      P.step t g l a = some (g', l') → A u g' m)
    {c d : Config ι γ ℓ} {labels : List (ι × α)} (hc : Holds I A c)
    (hguard : P.machine.Guarded (guardOn G) c labels)
    (hrun : P.machine.exec c labels = some d) : Holds I A d :=
  Machine.inv_of_guarded (fun _ _ _ hs hg hn => holds_step own others hs hg hn) hc hguard hrun

/-- A property of one thread's local state that its own steps keep, along a run
whose configurations satisfy `J`. -/
theorem local_of_exec {S : ℓ → Prop} {t : ι} {J : Config ι γ ℓ → Prop}
    (halong : ∀ c a d, J c → P.machine.next c a = some d → J d)
    (hstays : ∀ c a g' l', J c → S (c.threads t) →
      P.step t c.shared (c.threads t) a = some (g', l') → S l')
    {c d : Config ι γ ℓ} {labels : List (ι × α)} (hc : J c) (hlocal : S (c.threads t))
    (hrun : P.machine.exec c labels = some d) : S (d.threads t) := by
  have key : J d ∧ S (d.threads t) := by
    refine Machine.inv_of_exec (I := fun c => J c ∧ S (c.threads t))
      (fun e a f he hnext => ⟨halong e a f he.1 hnext, ?_⟩) ⟨hc, hlocal⟩ hrun
    obtain ⟨u, a⟩ := a
    obtain ⟨hstep, hrest⟩ := next_eq_some hnext
    rcases eq_or_ne t u with rfl | hu
    · exact hstays e a _ _ he.1 he.2 hstep
    · rw [hrest t hu]
      exact he.2
  exact key.2

section

variable {owner owner' : Option ι} {t u : ι}

omit [DecidableEq ι] in
theorem eq_of_owner (ht : owner = some t) (hu : owner = some u) : u = t :=
  Option.some_inj.mp (hu.symm.trans ht)

omit [DecidableEq ι] in
/-- What is free, or owned by a thread, is not owned by another one. -/
theorem not_owner (hu : u ≠ t) (h : owner' = none ∨ owner' = some t) : owner' ≠ some u := by
  intro howner
  rcases h with hnone | hsome
  · rw [hnone] at howner
    cases howner
  · exact hu (eq_of_owner hsome howner)

end

end Program
