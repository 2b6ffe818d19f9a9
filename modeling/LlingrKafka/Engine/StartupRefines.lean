import LlingrKafka.Engine.Agreement
import LlingrKafka.Foundations.Simulation

/-!
# The startup refines `build`

`Engine.build` assumes of `llingr_init` that it returns some code and text, and that a return
of 0 has sealed the registration.  `startup_refines` discharges the assumption: every run of
the builds with `llingr_init` inside shows the calls and results of a run of `build` alone, and
ends with the same handler sets, flags and locks.

A step of `llingr_init` is none of `build`; its return is the one step `build` takes for it.
In between the registration may already be sealed below and not yet above (`Sealing`).
-/

namespace LlingrKafka.Engine

open Bridge

/-- What a host sees of its calls of `build`. -/
inductive BuildEvent (ι : Type*)
  | call (t : ι) (attempt : Attempt)
  | ret (t : ι) (result : BuildResult)

variable {ι : Type*}

/-- What a move of `t` from `l` to `l'` shows. -/
def buildEvent (t : ι) : BuildAct ι → BuildAct ι → Option (BuildEvent ι)
  | .idle, .call attempt _ => some (.call t attempt)
  | _, .call _ (.returned result) => some (.ret t result)
  | _, _ => none

section

variable [DecidableEq ι]

def buildSee (a : BuildCfg ι) (label : ι × BuildMove) : Option (BuildEvent ι) :=
  (buildStep label.1 a.shared (a.threads label.1) label.2).bind fun r =>
    buildEvent label.1 (a.threads label.1) r.2

def startupSee (c : StartupCfg ι) (label : ι × StartupMove) : Option (BuildEvent ι) :=
  (startupStep label.1 c.shared (c.threads label.1) label.2).bind fun r =>
    buildEvent label.1 (c.threads label.1).build r.2.build

end

/-- Below, the registration is sealed by a call of `llingr_init` that has not returned. -/
def Sealing (c : StartupCfg ι) (reg : Registration) : Prop :=
  c.shared.engine.registration = reg.sealCallbacks ∧
    ∃ t attempt frame, c.threads t = .call attempt .init (some frame) ∧ Succeeded frame

/-- The state of `build` behind a state of the startup. -/
structure Refines (c : StartupCfg ι) (a : BuildCfg ι) : Prop where
  threads : ∀ t, a.threads t = (c.threads t).build
  shared : a.shared = { c.shared.engine with registration := a.shared.registration }
  registration : c.shared.engine.registration = a.shared.registration ∨
    Sealing c a.shared.registration

/-- Outside of a return from `llingr_init` the two have one memory. -/
theorem Refines.shared_eq {c : StartupCfg ι} {a : BuildCfg ι} (h : Refines c a)
    (hreg : c.shared.engine.registration = a.shared.registration) : a.shared = c.shared.engine := by
  rw [h.shared, ← hreg]

theorem sealCallbacks_of_sealed {reg : Registration} (h : reg.callbacksSealed = true) :
    reg.sealCallbacks = reg := by
  obtain ⟨callbacks, isSealed⟩ := reg
  obtain rfl : isSealed = true := h
  rfl

section

variable [DecidableEq ι] {c d : StartupCfg ι} {a : BuildCfg ι} {t : ι}

/-- Before the lock `build` reads nothing. -/
theorem build_before {attempt : Attempt} {g g' : EngineShared ι} {pc pc' : BuildPc ι}
    {move : BuildMove} (g₂ : EngineShared ι) (hpc : pc = .deferred ∨ pc = .abi)
    (h : build t attempt g pc move = some (g', pc')) :
    g' = g ∧ build t attempt g₂ pc move = some (g₂, pc') := by
  rcases hpc with rfl | rfl
  · cases move with
    | step =>
        cases hdeferred : attempt.deferredError with
        | none =>
            simp only [build, hdeferred, Option.some_inj, Prod.mk.injEq] at h ⊢
            exact ⟨h.1.symm, trivial, h.2⟩
        | some message =>
            simp only [build, hdeferred, Option.some_inj, Prod.mk.injEq] at h ⊢
            exact ⟨h.1.symm, trivial, h.2⟩
    | _ => cases h
  · cases move with
    | abi reported =>
        simp only [build] at h ⊢
        split_ifs at h ⊢ with hreported
        · simp only [Option.some_inj, Prod.mk.injEq] at h ⊢
          exact ⟨h.1.symm, trivial, h.2⟩
        · simp only [Option.some_inj, Prod.mk.injEq] at h ⊢
          exact ⟨h.1.symm, trivial, h.2⟩
    | _ => cases h

/-- While one build is inside `llingr_init`, another one that moves has not reached the lock. -/
theorem before_of_sealing {attempt : Attempt} {pc pc' : BuildPc ι} {engine : EngineShared ι}
    {frame : Option InitFrame} {reg : Registration} (hreach : (startupMachine ι).Reachable c)
    (hsealing : Sealing c reg) (hl : c.threads t = .call attempt pc frame) (hne : pc ≠ .init)
    (h : BuildStep t attempt c.shared.engine pc engine pc') : pc = .deferred ∨ pc = .abi := by
  obtain ⟨-, hown⟩ := startup_holds hreach
  obtain ⟨-, t₀, attempt₀, frame₀, hl₀, -⟩ := hsealing
  have hinit := hown t₀
  rw [hl₀] at hinit
  have hheld : c.shared.engine.initLock = some t₀ := hinit.1.1.1
  have hmine := hown t
  rw [hl] at hmine
  obtain ⟨⟨hpc, -⟩, -⟩ := hmine
  have hother : c.shared.engine.initLock = some t → pc = .deferred ∨ pc = .abi := by
    intro hlock
    obtain rfl := Program.eq_of_owner hlock hheld
    rw [hl] at hl₀
    exact absurd (StartupAct.call.inj hl₀).2.1 hne
  cases h with
  | deferred | undeferred => exact .inl rfl
  | abiMismatch | abi => exact .inr rfl
  | lock hfree =>
      rw [hheld] at hfree
      cases hfree
  | restore | refuse | nothingPublished => exact hpc.elim
  | dropPublished => exact hother hpc.2.1
  | unlock result => cases result <;> exact hother hpc.1
  | initFailed | initialised => exact absurd rfl hne
  | _ => exact hother hpc.1

/-! ## One step -/

/-- Outside `llingr_init` a move is one of `build`. -/
theorem startupStep_build {attempt : Attempt} {g g' : StartupShared ι} {pc : BuildPc ι}
    {frame : Option InitFrame} {l' : StartupAct ι} {move : StartupMove} (hne : pc ≠ .init)
    (h : startupStep t g (.call attempt pc frame) move = some (g', l')) :
    ∃ answer engine pc', build t attempt g.engine pc answer = some (engine, pc') ∧
      g' = { g with engine } ∧ l' = .call attempt pc' frame := by
  unfold startupStep at h
  split at h
  case h_6 attempt' pc₀ frame' answer _ heq =>
    obtain ⟨rfl, rfl, rfl⟩ := StartupAct.call.inj heq
    obtain ⟨⟨engine, pc'⟩, hstep, heq'⟩ := Option.map_eq_some_iff.mp h
    obtain ⟨rfl, rfl⟩ := Prod.mk.inj heq'
    exact ⟨answer, engine, pc', hstep, rfl, rfl⟩
  case h_1 heq => cases heq
  case h_2 heq | h_3 heq | h_4 heq => exact absurd (StartupAct.call.inj heq).2.1 hne
  case h_5 heq _ _ _ => exact absurd (StartupAct.call.inj heq).2.1 hne
  case h_7 => cases h

/-- `Refines`, along the runs of the startup. -/
def Follows (c : StartupCfg ι) (a : BuildCfg ι) : Prop :=
  (startupMachine ι).Reachable c ∧ Refines c a

abbrev Answered (c : StartupCfg ι) (a : BuildCfg ι) (seen : Option (BuildEvent ι)) : Prop :=
  (buildMachine ι).Answers buildSee Follows c a seen

theorem startupSee_of_step {move : StartupMove}
    (hstep : startupStep t c.shared (c.threads t) move = some (d.shared, d.threads t)) :
    startupSee c (t, move) = buildEvent t (c.threads t).build (d.threads t).build := by
  simp only [startupSee, hstep, Option.bind_some]

/-- `build` takes one step for the one below. -/
theorem answered_by {move : StartupMove} {answer : BuildMove} {g : EngineShared ι}
    (hrel : Refines c a) (hreach : (startupMachine ι).Reachable d)
    (hthreads : ∀ u, u ≠ t → d.threads u = c.threads u)
    (hstep : startupStep t c.shared (c.threads t) move = some (d.shared, d.threads t))
    (hanswer : buildStep t a.shared (c.threads t).build answer = some (g, (d.threads t).build))
    (hshared : g = { d.shared.engine with registration := g.registration })
    (hreg : d.shared.engine.registration = g.registration ∨ Sealing d g.registration) :
    Answered d a (startupSee c (t, move)) := by
  rw [← hrel.threads t] at hanswer
  refine Machine.answers_step (b := (t, answer)) (Program.next_of_step hanswer) ?_
    ⟨hreach, fun u => ?_, hshared, hreg⟩
  · rw [startupSee_of_step hstep, ← hrel.threads t]
    show Option.bind _ _ = _
    rw [hanswer]
    rfl
  · by_cases hu : u = t
    · subst hu
      exact Function.update_self ..
    · exact (Function.update_of_ne hu ..).trans ((hrel.threads u).trans (by rw [hthreads u hu]))

/-- `build` does nothing for a step that it does not have. -/
theorem answered_stay {move : StartupMove} (hrel : Refines c a)
    (hreach : (startupMachine ι).Reachable d) (hthreads : ∀ u, u ≠ t → d.threads u = c.threads u)
    (hsee : startupSee c (t, move) = none) (hbuild : (d.threads t).build = (c.threads t).build)
    (hshared : a.shared = { d.shared.engine with registration := a.shared.registration })
    (hreg : d.shared.engine.registration = a.shared.registration ∨
      Sealing d a.shared.registration) :
    Answered d a (startupSee c (t, move)) := by
  refine Machine.answers_stay hsee ⟨hreach, fun u => ?_, hshared, hreg⟩
  by_cases hu : u = t
  · subst hu
    exact (hrel.threads u).trans hbuild.symm
  · rw [hthreads u hu]
    exact hrel.threads u

omit [DecidableEq ι] in
/-- A thread outside `llingr_init` leaves the one that is sealing alone. -/
theorem Sealing.mono {reg : Registration} (h : Sealing c reg)
    (hthreads : ∀ u, u ≠ t → d.threads u = c.threads u)
    (hreg : d.shared.engine.registration = c.shared.engine.registration)
    (hne : ∀ attempt frame, c.threads t ≠ .call attempt .init (some frame)) : Sealing d reg := by
  obtain ⟨hsealed, t₀, attempt, frame, hl, hsucceeded⟩ := h
  refine ⟨hreg.trans hsealed, t₀, attempt, frame, ?_, hsucceeded⟩
  rw [hthreads t₀, hl]
  intro heq
  exact hne attempt frame (heq ▸ hl)

/-- Only one build is ever at `llingr_init`. -/
theorem eq_of_init {t₀ : ι} {attempt attempt₀ : Attempt} {frame frame₀ : Option InitFrame}
    (hreach : (startupMachine ι).Reachable c) (hl : c.threads t = .call attempt .init frame)
    (hl₀ : c.threads t₀ = .call attempt₀ .init frame₀) : t₀ = t := by
  obtain ⟨-, hown⟩ := startup_holds hreach
  have hmine := hown t
  have hother := hown t₀
  rw [hl] at hmine
  rw [hl₀] at hother
  exact Program.eq_of_owner hmine.1.1.1 hother.1.1.1

theorem answered_call {move : StartupMove} (hrel : Refines c a)
    (hreach' : (startupMachine ι).Reachable d) (hthreads : ∀ u, u ≠ t → d.threads u = c.threads u)
    (hstep : startupStep t c.shared (c.threads t) move = some (d.shared, d.threads t))
    (hl : c.threads t = .idle) : Answered d a (startupSee c (t, move)) := by
  have hcases := startupStep_cases hstep
  rw [hl] at hcases
  generalize hl' : d.threads t = l' at hcases
  generalize hg : d.shared = g' at hcases
  cases hcases with
  | call attempt =>
      have hanswer : buildStep t a.shared (c.threads t).build (.call attempt) =
          some (a.shared, (d.threads t).build) := by
        rw [hl, hl']
        rfl
      refine answered_by hrel hreach' hthreads hstep hanswer (by rw [hg]; exact hrel.shared) ?_
      refine hrel.registration.imp (by rw [hg]; exact id) fun hsealing => ?_
      refine hsealing.mono hthreads (by rw [hg]) fun attempt' frame' heq => ?_
      rw [hl] at heq
      cases heq

/-- A move of `build` outside `llingr_init` is made above as it is made below. -/
theorem answered_build {move : StartupMove} {attempt : Attempt} {pc : BuildPc ι}
    {frame : Option InitFrame} (hrel : Refines c a) (hreach : (startupMachine ι).Reachable c)
    (hreach' : (startupMachine ι).Reachable d)
    (hthreads : ∀ u, u ≠ t → d.threads u = c.threads u)
    (hstep : startupStep t c.shared (c.threads t) move = some (d.shared, d.threads t))
    (hl : c.threads t = .call attempt pc frame) (hne : pc ≠ .init) :
    Answered d a (startupSee c (t, move)) := by
  have hmove := hstep
  rw [hl] at hmove
  obtain ⟨answer, engine, pc', hbuild, hg, hl'⟩ := startupStep_build hne hmove
  have hengine : d.shared.engine = engine := congrArg StartupShared.engine hg
  rcases hrel.registration with hreg | hsealing
  · have hanswer : buildStep t a.shared (c.threads t).build answer =
        some (d.shared.engine, (d.threads t).build) := by
      rw [hl, hl', hrel.shared_eq hreg, hengine]
      simp only [StartupAct.build, buildStep, hbuild, Option.map_some]
    exact answered_by hrel hreach' hthreads hstep hanswer rfl (.inl rfl)
  · have hpc := before_of_sealing hreach hsealing hl hne (build_cases hbuild)
    obtain ⟨hsame, hbuild'⟩ := build_before a.shared hpc hbuild
    have hanswer : buildStep t a.shared (c.threads t).build answer =
        some (a.shared, (d.threads t).build) := by
      rw [hl, hl']
      simp only [StartupAct.build, buildStep, hbuild', Option.map_some]
    have hsame' : d.shared.engine = c.shared.engine := hengine.trans hsame
    refine answered_by hrel hreach' hthreads hstep hanswer ?_ (.inr ?_)
    · rw [hsame']
      exact hrel.shared
    · refine hsealing.mono hthreads (by rw [hsame']) fun attempt' frame' heq => hne ?_
      exact (StartupAct.call.inj (hl.symm.trans heq)).2.1

omit [DecidableEq ι] in
/-- `llingr_init` writes the registration where it seals it. -/
theorem registration_of_initStep {g b : InitShared ι} {frame frame' : InitFrame}
    (h : InitStep t g frame b frame') :
    b.registration = g.registration ∨
      (Succeeded frame' ∧ b.registration = g.registration.sealCallbacks) := by
  cases h with
  | sealing hpc => exact .inr ⟨trivial, rfl⟩
  | _ => exact .inl rfl

/-- The steps inside `llingr_init` show nothing; its return is one step of `build`. -/
theorem answered_init {move : StartupMove} {attempt : Attempt} {frame : Option InitFrame}
    (hrel : Refines c a) (hreach : (startupMachine ι).Reachable c)
    (hreach' : (startupMachine ι).Reachable d)
    (hthreads : ∀ u, u ≠ t → d.threads u = c.threads u)
    (hstep : startupStep t c.shared (c.threads t) move = some (d.shared, d.threads t))
    (hl : c.threads t = .call attempt .init frame) : Answered d a (startupSee c (t, move)) := by
  have hown := (startup_holds hreach).2 t
  have hsee := startupSee_of_step hstep
  have hcases := startupStep_cases hstep
  -- only a call that has sealed is ahead of `build`, and it is the one inside `llingr_init`
  have hequal : (∀ frame₀, frame = some frame₀ → ¬ Succeeded frame₀) →
      c.shared.engine.registration = a.shared.registration := by
    intro hnot
    refine hrel.registration.resolve_right ?_
    rintro ⟨-, t₀, attempt₀, frame₀, hl₀, hsucceeded⟩
    obtain rfl := eq_of_init hreach hl hl₀
    exact hnot frame₀ (StartupAct.call.inj (hl.symm.trans hl₀)).2.2 hsucceeded
  rw [hl] at hcases hown
  generalize hl' : d.threads t = l' at hcases
  generalize hg : d.shared = g' at hcases
  cases hcases with
  | build hne => exact absurd rfl hne
  | enter =>
      refine answered_stay hrel hreach' hthreads (by rw [hsee, hl, hl']; rfl) (by rw [hl, hl']; rfl)
        ?_ (.inl ?_)
      · rw [hg]
        exact hrel.shared
      · rw [hg]
        exact hequal nofun
  | @init attempt frame frame' b h =>
      refine answered_stay hrel hreach' hthreads (by rw [hsee, hl, hl']; rfl) (by rw [hl, hl']; rfl)
        ?_ ?_
      · rw [hg]
        exact hrel.shared
      · rw [hg]
        rcases registration_of_initStep h with hsame | ⟨hsucceeded, hsealed⟩
        · refine hrel.registration.imp hsame.trans fun hsealing => ?_
          obtain ⟨hreg, t₀, attempt₀, frame₀, hl₀, hsucceeded⟩ := hsealing
          obtain rfl := eq_of_init hreach hl hl₀
          obtain rfl := Option.some_inj.mp (StartupAct.call.inj (hl.symm.trans hl₀)).2.2
          exact ⟨by rw [hg]; exact hsame.trans hreg, t₀, _, _, hl', hsucceeded.step h⟩
        · refine .inr ⟨?_, t, _, _, hl', hsucceeded⟩
          rw [hg]
          refine hsealed.trans ?_
          rcases hrel.registration with hreg | hsealing
          · exact congrArg Registration.sealCallbacks hreg
          · exact (congrArg Registration.sealCallbacks hsealing.1).trans
              (sealCallbacks_of_sealed rfl)
  | @failed attempt frame rc hpc hrc message hmessage =>
      have hreg := hequal (by
        rintro frame₀ heq
        obtain rfl := Option.some_inj.mp heq
        simp only [Succeeded, hpc]
        exact hrc)
      have hanswer : buildStep t a.shared (c.threads t).build (.initReturns rc message) =
          some (a.shared, (d.threads t).build) := by
        rw [hl, hl']
        simp only [StartupAct.build, buildStep, build, if_pos hrc, Option.map_some]
      refine answered_by hrel hreach' hthreads hstep hanswer ?_ (.inl ?_)
      · rw [hg]
        exact hrel.shared
      · rw [hg]
        exact hreg
  -- here `build` seals in the same step, and has caught up
  | @initialised attempt frame hpc =>
      have hframe : FrameOwn t c.shared.bridge frame := hown.2.1
      simp only [FrameOwn, hpc] at hframe
      obtain ⟨-, hsealed, -⟩ := hframe.2.1 rfl
      have hreg : c.shared.engine.registration = a.shared.registration.sealCallbacks := by
        rcases hrel.registration with hreg | hsealing
        · rw [← hreg]
          exact (sealCallbacks_of_sealed hsealed).symm
        · exact hsealing.1
      have hanswer : buildStep t a.shared (c.threads t).build (.initReturns 0 "") =
          some ({ a.shared with registration := a.shared.registration.sealCallbacks },
            (d.threads t).build) := by
        rw [hl, hl']
        simp only [StartupAct.build, buildStep, build, ne_eq, not_true_eq_false, if_false,
          Option.map_some]
      refine answered_by hrel hreach' hthreads hstep hanswer ?_ (.inl ?_)
      · rw [hg, hrel.shared]
      · rw [hg]
        exact hreg

/-- `build` simulates the startup. -/
theorem startup_simulation :
    Machine.Simulation (startupMachine ι) (buildMachine ι) startupSee buildSee Follows where
  start := ⟨⟨[], rfl⟩, fun t => rfl, rfl, .inl rfl⟩
  step := by
    rintro c a ⟨t, move⟩ d ⟨hreach, hrel⟩ hnext
    obtain ⟨hstep, hthreads⟩ := Program.next_eq_some hnext
    have hreach' : (startupMachine ι).Reachable d := hreach.next hnext
    cases hl : c.threads t with
    | idle => exact answered_call hrel hreach' hthreads hstep hl
    | call attempt pc frame =>
        by_cases hpc : pc = .init
        · subst hpc
          exact answered_init hrel hreach hreach' hthreads hstep hl
        · exact answered_build hrel hreach hreach' hthreads hstep hl hpc

/-- **The startup refines `build`**: what a run of the builds shows their callers, with
`llingr_init` inside, a run of `build` alone shows too, and it ends in the same memory. -/
theorem startup_refines {labels : List (ι × StartupMove)}
    (hrun : (startupMachine ι).exec (startupMachine ι).start labels = some c) :
    ∃ answer a, (buildMachine ι).exec (buildMachine ι).start answer = some a ∧
      (buildMachine ι).trace buildSee (buildMachine ι).start answer =
        (startupMachine ι).trace startupSee (startupMachine ι).start labels ∧ Refines c a := by
  obtain ⟨answer, a, hexec, htrace, -, hrel⟩ :=
    startup_simulation.run startup_simulation.start hrun
  exact ⟨answer, a, hexec, htrace, hrel⟩

end

/-- What the callers of `startupRun` see. -/
def startupSeen : List (BuildEvent ℕ) :=
  let attempt : Attempt := ⟨"orders", none, none, true⟩
  [.call 0 attempt, .call 1 attempt, .ret 0 (.error ⟨-5, "invalid configuration: drain"⟩),
    .ret 1 (.ok ()), .call 2 attempt,
    .ret 2 (.error ⟨-1, "only one llingr instance per process"⟩)]

set_option maxRecDepth 20000 in
theorem startup_refines_retryAfterPanic :
    ∃ c, (startupMachine ℕ).exec (startupMachine ℕ).start startupRun = some c ∧
      ∃ answer a, (buildMachine ℕ).exec (buildMachine ℕ).start answer = some a ∧
        (buildMachine ℕ).trace buildSee (buildMachine ℕ).start answer = startupSeen ∧
        Refines c a := by
  have hruns : ((startupMachine ℕ).exec (startupMachine ℕ).start startupRun).isSome = true := rfl
  have hseen : (startupMachine ℕ).trace startupSee (startupMachine ℕ).start startupRun =
    startupSeen := rfl
  obtain ⟨c, hrun⟩ := Option.isSome_iff_exists.mp hruns
  obtain ⟨answer, a, hexec, htrace, hrel⟩ := startup_refines hrun
  exact ⟨c, hrun, answer, a, hexec, htrace.trans hseen, hrel⟩

end LlingrKafka.Engine
