import LlingrKafka.Engine.Startup

/-!
# The two halves agree

Rust keeps an engine's existence in `INITED` and `HANDLERS`, Go in `state.consumer` and
`callbacksSealed`, and each half has a lock and a check of its own.  `startup_agrees` says of
every interleaving of builds that the two records agree whenever no build is under way, and
what a build that has returned leaves on either side.

The invariant takes what each half knows on its own (`BuildOwn`, `InitOwn`) and adds what the
one knows of the other (`Cross`).  Only the holder of `INIT_LOCK` is ever inside `llingr_init`,
so nobody else moves the bridge while a build looks at it (`StartupLe`).
-/

namespace LlingrKafka.Engine

open Bridge

variable {ι : Type*}

/-! ## What one half knows of the other -/

/-- The two records agree, and nobody is inside `llingr_init`. -/
structure Agrees (g : StartupShared ι) : Prop where
  handlers : g.engine.handlers = g.state.consumer
  initMu : g.initMu = none
  sealed : g.engine.registration.callbacksSealed = g.state.consumer.isSome

/-- The bridge has no engine and nobody is inside `llingr_init`. -/
structure Quiet (g : StartupShared ι) : Prop where
  consumer : g.state.consumer = none
  initMu : g.initMu = none

/-- The call of `llingr_init` has published its consumer. -/
def Succeeded (frame : InitFrame) : Prop :=
  match frame.pc with
  | .sealing | .disown => True
  | .unlock (.returns rc) | .recover (.returns rc) | .returned rc => rc = 0
  | _ => False

/-- What holds while `t` is inside `llingr_init`. -/
structure Inside (t : ι) (g : StartupShared ι) (frame : InitFrame) : Prop where
  initMu : ∀ u, g.initMu = some u → u = t
  consumer : Succeeded frame ∨ g.state.consumer = none

/-- The error is the one `llingr_init` returned. -/
structure Reported (err : LlingrError) (frame : InitFrame) : Prop where
  pc : frame.pc = .returned err.code
  code : err.code ≠ 0
  message : Wire.buildFailureText err.code (frame.text.map Utf8.encode) = some err.message

/-- What a call of `build` knows of the bridge, and of its call of `llingr_init`. -/
def Cross (t : ι) (g : StartupShared ι) : BuildPc ι → Option InitFrame → Prop
  | .deferred, frame | .abi, frame | .lock, frame => frame = none
  | .check, frame | .config, frame | .realise, frame | .box _, frame | .swap _, frame =>
      frame = none ∧ Agrees g
  | .restore _, _ | .refuse, _ => False
  | .register _, frame => frame = none ∧ Quiet g
  | .init, none => Quiet g
  | .init, some frame => Inside t g frame
  | .rollback err, frame => Quiet g ∧ ∃ f ∈ frame, Reported err f
  | .dropPublished _ err, frame => Agrees g ∧ ∃ f ∈ frame, Reported err f
  | .setInited, frame => g.initMu = none ∧ ∃ f ∈ frame, f.pc = .returned 0
  | .unlock (.ok _), frame => g.initMu = none ∧ ∃ f ∈ frame, f.pc = .returned 0
  | .unlock (.error err), frame => Agrees g ∧ ∀ f ∈ frame, Reported err f
  | .returned (.ok _), frame => ∃ f ∈ frame, f.pc = .returned 0
  | .returned (.error err), frame => ∀ f ∈ frame, Reported err f

/-- A thread's part in the startup. -/
def StartupOwn (t : ι) (g : StartupShared ι) (l : StartupAct ι) : Prop :=
  BuildOwn t g.engine l.build ∧ InitOwn t g.bridge l.init ∧
    match l with
    | .idle => True
    | .call _ pc frame => Cross t g pc frame

structure StartupInv (g : StartupShared ι) : Prop where
  engine : BuildInv g.engine
  bridge : InitInv g.bridge
  agrees : g.engine.initLock = none → Agrees g

/-- What a step of `t` leaves to the other calls. -/
structure StartupLe (t : ι) (g g' : StartupShared ι) : Prop where
  engine : BuildLe t g.engine g'.engine
  bridge : InitLe t g.bridge g'.bridge
  held : ∀ u, u ≠ t → g.engine.initLock = some u → g'.state = g.state ∧ g'.initMu = g.initMu ∧
    g'.engine.registration.callbacksSealed = g.engine.registration.callbacksSealed

/-! ## The bridge under a step of `build` -/

/-- Two views of the bridge that differ in the callbacks only. -/
structure SameBridge (b b' : InitShared ι) : Prop where
  state : b'.state = b.state
  initMu : b'.initMu = b.initMu
  sealed : b'.registration.callbacksSealed = b.registration.callbacksSealed

theorem SameBridge.inv {b b' : InitShared ι} (h : SameBridge b b') (hinv : InitInv b) :
    InitInv b' where
  state := by
    unfold Published
    rw [h.state]
    exact hinv.state
  sealed := by
    unfold Published
    rw [h.state, h.sealed]
    exact hinv.sealed

theorem SameBridge.le {b b' : InitShared ι} (h : SameBridge b b') (t : ι) : InitLe t b b' where
  held := fun u _ hu => ⟨h.initMu.trans hu, h.state, h.sealed⟩
  notHeld := fun u _ hu => by rwa [h.initMu]
  published := fun u hu => by
    unfold Published
    rw [h.state]
    exact hu
  sealed := fun hu => h.sealed.trans hu

section

variable [DecidableEq ι]

/-- Outside `llingr_init` a build changes the callbacks at most. -/
theorem BuildStep.sameBridge {t : ι} {attempt : Attempt} {g : StartupShared ι}
    {engine : EngineShared ι} {pc pc' : BuildPc ι} (hpc : pc ≠ .init)
    (h : BuildStep t attempt g.engine pc engine pc') :
    SameBridge g.bridge { g with engine }.bridge := by
  refine ⟨rfl, rfl, ?_⟩
  show engine.registration.callbacksSealed = g.engine.registration.callbacksSealed
  cases h with
  | register realised => exact callbacksSealed_registerTrampolines _ _
  | initFailed rc text hrc => exact absurd rfl hpc
  | initialised => exact absurd rfl hpc
  | _ => rfl

end

theorem SameBridge.own {b b' : InitShared ι} (h : SameBridge b b') {t : ι} {l : InitAct}
    (hown : InitOwn t b l) : InitOwn t b' l := by
  obtain ⟨state, initMu, callbacks, isSealed⟩ := b
  obtain ⟨state', initMu', callbacks', isSealed'⟩ := b'
  obtain ⟨hstate, hmu, hsealed⟩ := h
  obtain rfl : state' = state := hstate
  obtain rfl : initMu' = initMu := hmu
  obtain rfl : isSealed' = isSealed := hsealed
  exact hown

/-! ## Inside `llingr_init` -/

/-- Without a consumer registration is open. -/
theorem Quiet.agrees {g : StartupShared ι} (h : Quiet g) (hinv : InitInv g.bridge)
    (hnull : g.engine.handlers = none) : Agrees g where
  handlers := hnull.trans h.consumer.symm
  initMu := h.initMu
  sealed := by
    rw [h.consumer]
    exact (hinv.unpublished h.consumer).2

/-- Once `llingr_init` has failed, the bridge is as it was. -/
theorem Inside.quiet {t : ι} {g : StartupShared ι} {frame : InitFrame} (h : Inside t g frame)
    (hown : FrameOwn t g.bridge frame) {rc : ℤ} (hpc : frame.pc = .returned rc) (hrc : rc ≠ 0) :
    Quiet g := by
  simp only [FrameOwn, hpc] at hown
  refine ⟨h.consumer.resolve_left ?_, ?_⟩
  · simp only [Succeeded, hpc]
    exact hrc
  · refine Option.eq_none_iff_forall_ne_some.mpr fun u hu => hown.1 ?_
    rw [← h.initMu u hu]
    exact hu

/-- A step of `llingr_init` keeps what holds inside it; the check for an engine finds none. -/
theorem Inside.step {t : ι} {g : StartupShared ι} {frame frame' : InitFrame} {b : InitShared ι}
    (h : Inside t g frame) (hstep : InitStep t g.bridge frame b frame') :
    Inside t (g.setBridge b) frame' := by
  have hnone : ¬ Succeeded frame → g.state.consumer = none := h.consumer.resolve_left
  have hstay : ∀ frame'', (Succeeded frame → Succeeded frame'') → Inside t g frame'' :=
    fun frame'' hsucceeded => ⟨h.initMu, h.consumer.imp_left hsucceeded⟩
  cases hstep with
  | lock hpc hfree =>
      refine ⟨fun u hu => (Option.some_inj.mp hu).symm, .inr (hnone ?_)⟩
      simp [Succeeded, hpc]
  -- `INIT_LOCK` is held and no engine exists, so the bridge has no consumer either
  | already hpc hsome =>
      have hconsumer := hnone (by simp [Succeeded, hpc])
      have hsome : g.state.consumer.isSome = true := hsome
      rw [hconsumer] at hsome
      cases hsome
  | publish hpc => exact ⟨h.initMu, .inl trivial⟩
  | sealing hpc => exact ⟨h.initMu, .inl trivial⟩
  | disown hpc => exact hstay _ fun _ => rfl
  | unlock ending hpc =>
      refine ⟨fun u hu => (by cases hu), h.consumer.imp_left fun hsucceeded => ?_⟩
      cases ending with
      | returns rc => simpa [Succeeded, hpc] using hsucceeded
      | panics value => simp [Succeeded, hpc] at hsucceeded
  | ret rc hpc => exact hstay _ fun hsucceeded => by simpa [Succeeded, hpc] using hsucceeded
  | panicked hpc value =>
      refine hstay _ fun hsucceeded => ?_
      rcases hpc with hpc | hpc | hpc <;> simp [Succeeded, hpc] at hsucceeded
  | fresh hpc hfree | parsed hpc | parseFailed hpc err | logged hpc | newContext hpc | built hpc
  | buildFailed hpc err | abandon err hpc | recover value hpc =>
      refine hstay _ fun hsucceeded => ?_
      simp [Succeeded, hpc] at hsucceeded

/-- What `llingr_init` has published stays published. -/
theorem Succeeded.step {t : ι} {g b : InitShared ι} {frame frame' : InitFrame}
    (h : Succeeded frame) (hstep : InitStep t g frame b frame') : Succeeded frame' := by
  cases hstep with
  | sealing hpc => trivial
  | disown hpc => rfl
  | unlock ending hpc =>
      cases ending with
      | returns rc => simpa [Succeeded, hpc] using h
      | panics value => simp [Succeeded, hpc] at h
  | ret rc hpc => simpa [Succeeded, hpc] using h
  | publish hpc => trivial
  | panicked hpc value => rcases hpc with hpc | hpc | hpc <;> simp [Succeeded, hpc] at h
  | lock hpc hfree | already hpc hsome | fresh hpc hfree | parsed hpc | parseFailed hpc err
  | logged hpc | newContext hpc | built hpc | buildFailed hpc err | abandon err hpc
  | recover value hpc => simp [Succeeded, hpc] at h

/-- A consumer is published by its own call. -/
theorem consumer_of_initStep {t : ι} {g b : InitShared ι} {frame frame' : InitFrame}
    (h : InitStep t g frame b frame') :
    b.state = g.state ∨ (b.state.consumer = some t ∧ Succeeded frame') := by
  cases h with
  | publish hpc => exact .inr ⟨rfl, trivial⟩
  | _ => exact .inl rfl

/-! ## One step -/

section

variable [DecidableEq ι]

/-- What a build knows of the bridge survives its own steps outside `llingr_init`. -/
theorem cross_build {t : ι} {attempt : Attempt} {g : StartupShared ι} {engine : EngineShared ι}
    {pc pc' : BuildPc ι} {frame : Option InitFrame} (hinv : StartupInv g)
    (hpc : PcOwn t g.engine pc) (hcross : Cross t g pc frame) (hne : pc ≠ .init)
    (h : BuildStep t attempt g.engine pc engine pc') : Cross t { g with engine } pc' frame := by
  cases h with
  | deferred message herror => exact fun f hf => by rw [hcross] at hf; cases hf
  | undeferred hnone => exact hcross
  | abiMismatch reported => exact fun f hf => by rw [hcross] at hf; cases hf
  | abi => exact hcross
  -- the lock was free, so the records agree; from here to its release the thread carries that
  -- along
  | lock hfree =>
      obtain ⟨hhandlers, hmu, hsealed⟩ := hinv.agrees hfree
      exact ⟨hcross, hhandlers, hmu, hsealed⟩
  | inited hinited =>
      obtain ⟨rfl, hagrees⟩ := hcross
      exact ⟨hagrees, fun f hf => by cases hf⟩
  | fresh hfresh => exact hcross
  | interiorNul =>
      obtain ⟨rfl, hagrees⟩ := hcross
      exact ⟨hagrees, fun f hf => by cases hf⟩
  | converted => exact hcross
  | realised realised hrealised => exact hcross
  | bindFailed text =>
      obtain ⟨rfl, hagrees⟩ := hcross
      exact ⟨hagrees, fun f hf => by cases hf⟩
  | box realised =>
      obtain ⟨rfl, hhandlers, hmu, hsealed⟩ := hcross
      exact ⟨rfl, hhandlers, hmu, hsealed⟩
  | swap realised hnull =>
      obtain ⟨rfl, hhandlers, hmu, -⟩ := hcross
      exact ⟨rfl, hhandlers.symm.trans hnull, hmu⟩
  | occupied realised previous hprevious =>
      obtain ⟨-, -, -, hnull⟩ := hpc
      rw [hnull] at hprevious
      cases hprevious
  | restore previous => exact hpc.elim
  | refuse => exact hpc.elim
  | register realised =>
      obtain ⟨rfl, hconsumer, hmu⟩ := hcross
      exact ⟨hconsumer, hmu⟩
  | initFailed rc text hrc => exact absurd rfl hne
  | initialised => exact absurd rfl hne
  -- the set goes, and with it the two halves are empty again
  | rollback err =>
      obtain ⟨hquiet, hreported⟩ := hcross
      obtain ⟨-, hmu, hsealed⟩ :=
        Quiet.agrees (g := { g with engine := { g.engine with handlers := none } })
          ⟨hquiet.consumer, hquiet.initMu⟩ hinv.bridge rfl
      exact ⟨⟨hquiet.consumer.symm, hmu, hsealed⟩, hreported⟩
  | nothingPublished err => exact hpc.elim
  | dropPublished owner err =>
      obtain ⟨⟨hhandlers, hmu, hsealed⟩, f, hf, hreported⟩ := hcross
      refine ⟨⟨hhandlers, hmu, hsealed⟩, fun f' hf' => ?_⟩
      obtain rfl := Option.mem_unique hf hf'
      exact hreported
  | setInited => exact hcross
  | unlock result =>
      cases result with
      | ok value => exact hcross.2
      | error err => exact hcross.2

/-- When the lock is given back the records agree. -/
theorem agrees_build {t : ι} {attempt : Attempt} {g : StartupShared ι} {engine : EngineShared ι}
    {pc pc' : BuildPc ι} {frame : Option InitFrame} (hinv : StartupInv g)
    (hpc : PcOwn t g.engine pc) (hframe : ∀ f ∈ frame, FrameOwn t g.bridge f)
    (hcross : Cross t g pc frame) (hne : pc ≠ .init)
    (h : BuildStep t attempt g.engine pc engine pc') (hfree : engine.initLock = none) :
    Agrees { g with engine } := by
  have hheld : g.engine.initLock = some t → g.engine.initLock = none → Agrees { g with engine } :=
    fun hsome hnone => by rw [hnone] at hsome; cases hsome
  cases h with
  | deferred | undeferred | abiMismatch | abi => exact hinv.agrees hfree
  | lock => cases hfree
  | inited | fresh | interiorNul | converted | realised | bindFailed | box | swap | occupied
  | register | rollback | setInited => exact hheld hpc.1 hfree
  | restore | refuse | nothingPublished => exact hpc.elim
  | initFailed | initialised => exact absurd rfl hne
  | dropPublished => exact hheld hpc.2.1 hfree
  | unlock result =>
      cases result with
      | ok value =>
          obtain ⟨hmu, f, hf, hreturned⟩ := hcross
          have hown := hframe f hf
          simp only [FrameOwn, hreturned] at hown
          obtain ⟨hpublished, hsealed, -⟩ := hown.2.1 rfl
          have hconsumer : g.state.consumer = some t := hpublished.consumer
          refine ⟨hpc.2.2.2.trans hconsumer.symm, hmu, ?_⟩
          show g.engine.registration.callbacksSealed = g.state.consumer.isSome
          rw [hconsumer]
          exact hsealed
      | error err =>
          obtain ⟨⟨hhandlers, hmu, hsealed⟩, -⟩ := hcross
          exact ⟨hhandlers, hmu, hsealed⟩

/-- A step keeps the invariant and what its own thread knows, and disturbs no other one. -/
theorem startup_own {t : ι} {g g' : StartupShared ι} {l l' : StartupAct ι} (hinv : StartupInv g)
    (hown : StartupOwn t g l) (h : StartupStep t g l g' l') :
    StartupInv g' ∧ StartupOwn t g' l' ∧ StartupLe t g g' := by
  have hrefl : StartupLe t g g :=
    ⟨.refl t g.engine, .refl t g.bridge, fun _ _ _ => ⟨rfl, rfl, rfl⟩⟩
  cases h with
  | call attempt =>
      obtain ⟨⟨hlock, hbox⟩, hmu, -⟩ := hown
      refine ⟨hinv, ⟨⟨⟨hlock, hbox⟩, trivial, fun box hsome => ?_⟩, hmu, rfl⟩, hrefl⟩
      rw [hbox] at hsome
      cases hsome
  -- a step outside of `llingr_init` leaves the bridge but for the callbacks
  | @build attempt pc pc' frame engine hne hstep =>
      obtain ⟨⟨hpc, hattempt, hbox⟩, hinit, hcross⟩ := hown
      obtain ⟨hengine, hpc', hle⟩ := build_own hinv.engine hpc hstep
      have hsame := hstep.sameBridge (g := g) hne
      have hframe : ∀ f ∈ frame, FrameOwn t g.bridge f := by
        rintro f hf
        obtain rfl : frame = some f := hf
        exact hinit
      refine ⟨⟨hengine, hsame.inv hinv.bridge, agrees_build hinv hpc hframe hcross hne hstep⟩,
        ⟨⟨hpc', build_attempt hattempt hbox hstep⟩, hsame.own ?_,
          cross_build hinv hpc hcross hne hstep⟩,
        hle, hsame.le t, fun _ _ _ => ⟨rfl, rfl, hsame.sealed⟩⟩
      cases frame with
      | none => exact hinit
      | some f => exact hinit
  | enter attempt =>
      obtain ⟨hbuild, hmu, hquiet⟩ := hown
      refine ⟨hinv, ⟨hbuild, ⟨hmu, rfl, rfl⟩, fun u hu => ?_, .inr hquiet.consumer⟩, hrefl⟩
      rw [hquiet.initMu] at hu
      cases hu
  -- a step inside of it leaves the engine, whose lock the thread holds
  | @init attempt frame frame' b hstep =>
      obtain ⟨hbuild, hinit, hinside⟩ := hown
      obtain ⟨hbridge, hinit', hle⟩ := initStep_own hinv.bridge hinit hstep
      have hheld : g.engine.initLock = some t := hbuild.1.1
      have hengine : BuildLe t g.engine (g.setBridge b).engine :=
        ⟨fun _ _ hu => ⟨hu, rfl, rfl⟩, fun _ _ hu => hu, fun _ _ => rfl, fun hu => ⟨hu, rfl⟩⟩
      refine ⟨⟨⟨hinv.engine.flag, hinv.engine.published, hinv.engine.frees⟩, hbridge, ?_⟩,
        ⟨hbuild, hinit', hinside.step hstep⟩, hengine, hle, ?_⟩
      · intro hfree
        exact absurd (hheld.symm.trans hfree) (Option.some_ne_none t)
      · intro u hu hother
        exact absurd (Program.eq_of_owner hheld hother) hu
  | @failed attempt frame rc hreturned hrc message hmessage =>
      obtain ⟨hbuild, hinit, hinside⟩ := hown
      exact ⟨hinv, ⟨⟨hbuild.1, trivial, hbuild.2.2⟩, hinit, hinside.quiet hinit hreturned hrc,
        frame, rfl, hreturned, hrc, hmessage⟩, hrefl⟩
  | @initialised attempt frame hreturned =>
      obtain ⟨hbuild, hinit, hinside⟩ := hown
      refine ⟨hinv, ⟨⟨hbuild.1, trivial, hbuild.2.2⟩, hinit, ?_, frame, rfl, hreturned⟩, hrefl⟩
      have hframe : FrameOwn t g.bridge frame := hinit
      simp only [FrameOwn, hreturned] at hframe
      refine Option.eq_none_iff_forall_ne_some.mpr fun u hu => hframe.1 ?_
      rw [← hinside.initMu u hu]
      exact hu

omit [DecidableEq ι] in
theorem Agrees.mono {t u : ι} {g g' : StartupShared ι} (hu : u ≠ t) (hle : StartupLe t g g')
    (hheld : g.engine.initLock = some u) (h : Agrees g) : Agrees g' := by
  obtain ⟨-, -, hhandlers⟩ := hle.engine.held u hu hheld
  obtain ⟨hstate, hmu, hsealed⟩ := hle.held u hu hheld
  refine ⟨?_, hmu.trans h.initMu, ?_⟩
  · rw [hhandlers, hstate]
    exact h.handlers
  · rw [hsealed, hstate]
    exact h.sealed

omit [DecidableEq ι] in
theorem Quiet.mono {t u : ι} {g g' : StartupShared ι} (hu : u ≠ t) (hle : StartupLe t g g')
    (hheld : g.engine.initLock = some u) (h : Quiet g) : Quiet g' := by
  obtain ⟨hstate, hmu, -⟩ := hle.held u hu hheld
  refine ⟨?_, hmu.trans h.initMu⟩
  rw [hstate]
  exact h.consumer

omit [DecidableEq ι] in
/-- Only what the holder of the lock knows is about the bridge. -/
theorem Cross.mono {t u : ι} {g g' : StartupShared ι} {pc : BuildPc ι} {frame : Option InitFrame}
    (hu : u ≠ t) (hle : StartupLe t g g') (hpc : PcOwn u g.engine pc) (h : Cross u g pc frame) :
    Cross u g' pc frame := by
  have hmu : g.engine.initLock = some u → g.initMu = none → g'.initMu = none :=
    fun hheld hnone => (hle.held u hu hheld).2.1.trans hnone
  -- behind the lock `u` excludes the others; in front of it nothing is known
  cases pc with
  | deferred | abi | lock => exact h
  | check | config | realise | box | swap => exact ⟨h.1, h.2.mono hu hle hpc.1⟩
  | restore | refuse => exact h
  | register => exact ⟨h.1, h.2.mono hu hle hpc.1⟩
  | init =>
      cases frame with
      | none => exact Quiet.mono hu hle hpc.1 h
      | some frame =>
          obtain ⟨hstate, hsame, -⟩ := hle.held u hu hpc.1
          refine ⟨?_, ?_⟩
          · rw [hsame]
            exact h.initMu
          · rw [hstate]
            exact h.consumer
  | rollback => exact ⟨h.1.mono hu hle hpc.1, h.2⟩
  | dropPublished published err =>
      cases published with
      | none => exact hpc.elim
      | some owner => exact ⟨h.1.mono hu hle hpc.2.1, h.2⟩
  | setInited => exact ⟨hmu hpc.1 h.1, h.2⟩
  | unlock result =>
      cases result with
      | ok value => exact ⟨hmu hpc.1 h.1, h.2⟩
      | error err => exact ⟨h.1.mono hu hle hpc.1, h.2⟩
  | returned result =>
      cases result with
      | ok value => exact h
      | error err => exact h

omit [DecidableEq ι] in
theorem StartupOwn.mono {t u : ι} {g g' : StartupShared ι} {l : StartupAct ι} (hu : u ≠ t)
    (hle : StartupLe t g g') (h : StartupOwn u g l) : StartupOwn u g' l := by
  obtain ⟨hbuild, hinit, hcross⟩ := h
  refine ⟨hbuild.mono hu hle.engine, hinit.mono hu hle.bridge, ?_⟩
  cases l with
  | idle => trivial
  | call attempt pc frame => exact Cross.mono hu hle hbuild.1 hcross

variable {labels : List (ι × StartupMove)} {c : StartupCfg ι}

theorem startup_holds (hreach : (startupMachine ι).Reachable c) :
    Program.Holds StartupInv StartupOwn c := by
  obtain ⟨labels, hrun⟩ := hreach
  obtain ⟨hengine, hbuild⟩ := build_holds (ι := ι) (c := (buildMachine ι).start) ⟨[], rfl⟩
  obtain ⟨hbridge, hinit⟩ := init_holds (ι := ι) (c := (initMachine ι).start) ⟨[], rfl⟩
  have hstart : Program.Holds StartupInv StartupOwn (startupMachine ι).start :=
    ⟨⟨hengine, hbridge, fun _ => ⟨rfl, rfl, rfl⟩⟩, fun t => ⟨hbuild t, hinit t, trivial⟩⟩
  refine Program.inv_of_own_and_others (G := fun _ _ _ _ => True) ?_ ?_ hstart
    (Machine.guarded_of_forall (fun _ _ => trivial) _ labels) hrun
  · intro t g l move g' l' hinv hown _ hstep
    obtain ⟨hinv', hown', _⟩ := startup_own hinv hown (startupStep_cases hstep)
    exact ⟨hinv', hown'⟩
  · intro t u g l m move g' l' hu hinv hown hother _ hstep
    obtain ⟨_, _, hle⟩ := startup_own hinv hown (startupStep_cases hstep)
    exact hother.mono hu hle

/-! ## The agreement -/

/-- What a build leaves on both sides. -/
structure StartupAgreement (c : StartupCfg ι) : Prop where
  /-- A build that succeeded owns the engine: the consumer and the live context are those of its
  own `llingr_init`, its handler set is the published one, and registration is closed. -/
  ok : ∀ t, (c.threads t).build.result = some (.ok ()) →
    c.shared.state.consumer = some t ∧ (c.threads t).init.ctx = some .live ∧
      c.shared.engine.handlers = some t ∧ Boxed t c.shared.engine ∧
      c.shared.engine.registration.callbacksSealed = true
  /-- A build that failed left no consumer, no live context and no handler set behind, and if it
  got as far as `llingr_init`, its error is what that reported. -/
  error : ∀ t err, (c.threads t).build.result = some (.error err) →
    c.shared.state.consumer ≠ some t ∧ (c.threads t).init.ctx ≠ some .live ∧
      Disposed t c.shared.engine ∧
      ∀ frame, (c.threads t).init = .call frame → Reported err frame
  /-- Between the builds the two records agree. -/
  agree : c.shared.engine.initLock = none →
    c.shared.engine.handlers = c.shared.state.consumer ∧
      c.shared.engine.inited = c.shared.state.consumer.isSome ∧
      c.shared.engine.registration.callbacksSealed = c.shared.state.consumer.isSome ∧
      c.shared.initMu = none
  /-- Behind `INIT_LOCK`, `llingr_init` finds its own lock free and no engine. -/
  guarded : ∀ t frame, (c.threads t).init = .call frame →
    (frame.pc = .lock → c.shared.initMu = none) ∧
      (frame.pc = .check → c.shared.state.consumer = none)

/-- The thread whose consumer is published has published it. -/
def Claims (t : ι) (g : StartupShared ι) (l : StartupAct ι) : Prop :=
  g.state.consumer = some t → ∃ frame, l.init = .call frame ∧ Succeeded frame

theorem claims_holds (hreach : (startupMachine ι).Reachable c) (t : ι) :
    Claims t c.shared (c.threads t) := by
  obtain ⟨labels, hrun⟩ := hreach
  have hstart : Program.Holds (fun _ => True) Claims (startupMachine ι).start :=
    ⟨trivial, fun t ht => by cases ht⟩
  refine (Program.inv_of_own_and_others (G := fun _ _ _ _ => True) ?_ ?_ hstart
    (Machine.guarded_of_forall (fun _ _ => trivial) _ labels) hrun).2 t
  · intro t g l move g' l' _ hown _ hstep
    refine ⟨trivial, fun hconsumer => ?_⟩
    cases startupStep_cases hstep with
    | call => exact hown hconsumer
    | @build attempt pc pc' frame engine hne h =>
        obtain ⟨f, hf, hsucceeded⟩ := hown hconsumer
        refine ⟨f, ?_, hsucceeded⟩
        cases frame with
        | none => cases hf
        | some frame => exact hf
    | enter =>
        obtain ⟨f, hf, -⟩ := hown hconsumer
        cases hf
    | init h =>
        refine ⟨_, rfl, ?_⟩
        -- a consumer is published by the step that decides the success of its own call
        rcases consumer_of_initStep h with hsame | ⟨-, hsucceeded⟩
        · obtain ⟨f, hf, hsucceeded⟩ :=
            hown ((congrArg BridgeState.consumer hsame).symm.trans hconsumer)
          obtain rfl := InitAct.call.inj hf
          exact hsucceeded.step h
        · exact hsucceeded
    | failed => exact hown hconsumer
    | initialised => exact hown hconsumer
  · intro t u g l m move g' l' hu _ _ hother _ hstep hconsumer
    cases startupStep_cases hstep with
    | init h =>
        rcases consumer_of_initStep h with hsame | ⟨hmine, -⟩
        · exact hother ((congrArg BridgeState.consumer hsame).symm.trans hconsumer)
        · exact absurd (Option.some_inj.mp (hconsumer.symm.trans hmine)) hu
    | _ => exact hother hconsumer

omit [DecidableEq ι] in
/-- A frame that is kept past the call is that of a call that returned. -/
theorem Cross.returned {t : ι} {g : StartupShared ι} {pc : BuildPc ι} {frame : InitFrame}
    (h : Cross t g pc (some frame)) (hne : pc ≠ .init) : ∃ rc, frame.pc = .returned rc := by
  have hsome : ∀ {p : InitFrame → Prop}, (∃ f ∈ some frame, p f) → p frame := by
    rintro p ⟨f, hf, hp⟩
    obtain rfl := Option.some_inj.mp hf
    exact hp
  cases pc with
  | deferred | abi | lock => cases h
  | check | config | realise | box | swap | register => cases h.1
  | restore | refuse => exact h.elim
  | init => exact absurd rfl hne
  | rollback err | dropPublished published err => exact ⟨_, (hsome h.2).pc⟩
  | setInited => exact ⟨_, hsome h.2⟩
  | unlock result =>
      cases result with
      | ok value => exact ⟨_, hsome h.2⟩
      | error err => exact ⟨_, (h.2 frame rfl).pc⟩
  | returned result =>
      cases result with
      | ok value => exact ⟨_, hsome h⟩
      | error err => exact ⟨_, (h frame rfl).pc⟩

/-- **The two halves agree**, whatever builds run side by side and however they end. -/
theorem startup_agrees (hreach : (startupMachine ι).Reachable c) : StartupAgreement c := by
  obtain ⟨hinv, hown⟩ := startup_holds hreach
  constructor
  case ok =>
    intro t hresult
    have hmine := hown t
    cases hl : c.threads t with
    | idle =>
        rw [hl] at hresult
        cases hresult
    | call attempt pc frame =>
        rw [hl] at hresult hmine
        obtain ⟨⟨hpc, -⟩, hinit, hcross⟩ := hmine
        cases pc with
        | returned result =>
            -- an Ok comes of an `llingr_init` that returned 0, and its frame owns what is published
            obtain rfl := Option.some_inj.mp hresult
            obtain ⟨f, hf, hreturned⟩ := hcross
            obtain rfl : frame = some f := hf
            have hframe : FrameOwn t c.shared.bridge f := hinit
            simp only [FrameOwn, hreturned] at hframe
            obtain ⟨hpublished, hsealed, hctx⟩ := hframe.2.1 rfl
            exact ⟨hpublished.consumer, hctx, hpc.2.2.2, hpc.2.1, hsealed⟩
        | _ => cases hresult
  case error =>
    intro t err hresult
    have hmine := hown t
    have hclaims := claims_holds hreach t
    cases hl : c.threads t with
    | idle =>
        rw [hl] at hresult
        cases hresult
    | call attempt pc frame =>
        rw [hl] at hresult hmine hclaims
        obtain ⟨⟨hpc, -⟩, hinit, hcross⟩ := hmine
        cases pc with
        | returned result =>
            obtain rfl := Option.some_inj.mp hresult
            cases frame with
            | none =>
                refine ⟨fun hconsumer => ?_, fun hctx => ?_, hpc.2, fun f hf => ?_⟩
                · obtain ⟨f, hf, -⟩ := hclaims hconsumer
                  cases hf
                · cases hctx
                · cases hf
            | some f =>
                have hreported : Reported err f := hcross f rfl
                have hframe : FrameOwn t c.shared.bridge f := hinit
                simp only [FrameOwn, hreported.pc] at hframe
                -- a consumer of a failed call would have a frame that both succeeded and failed
                refine ⟨fun hconsumer => ?_, (hframe.2.2 hreported.code).1, hpc.2, ?_⟩
                · obtain ⟨f', hf', hsucceeded⟩ := hclaims hconsumer
                  obtain rfl := InitAct.call.inj hf'
                  simp only [Succeeded, hreported.pc] at hsucceeded
                  exact hreported.code hsucceeded
                · intro f' hf'
                  obtain rfl := InitAct.call.inj hf'
                  exact hreported
        | _ => cases hresult
  case agree =>
    intro hfree
    obtain ⟨hhandlers, hmu, hsealed⟩ := hinv.agrees hfree
    refine ⟨hhandlers, ?_, hsealed, hmu⟩
    rw [← hinv.engine.flag hfree, hhandlers]
  case guarded =>
    intro t frame hframe
    have hmine := hown t
    cases hl : c.threads t with
    | idle =>
        rw [hl] at hframe
        cases hframe
    | call attempt pc frame' =>
        rw [hl] at hframe hmine
        cases frame' with
        | none => cases hframe
        | some f =>
            obtain rfl := InitAct.call.inj hframe
            obtain ⟨-, hinit, hcross⟩ := hmine
            by_cases hpc : pc = .init
            · subst hpc
              have hinside : Inside t c.shared f := hcross
              have hown : FrameOwn t c.shared.bridge f := hinit
              constructor
              · intro hlock
                simp only [FrameOwn, hlock] at hown
                refine Option.eq_none_iff_forall_ne_some.mpr fun u hu => hown.1 ?_
                rw [← hinside.initMu u hu]
                exact hu
              · intro hcheck
                exact hinside.consumer.resolve_left (by simp [Succeeded, hcheck])
            · obtain ⟨rc, hreturned⟩ := hcross.returned hpc
              constructor
              · intro hlock
                rw [hreturned] at hlock
                cases hlock
              · intro hcheck
                rw [hreturned] at hcheck
                cases hcheck

end

/-- A build panics inside `llingr_init` while a second one waits; the second succeeds, and a
third comes late. -/
def startupRun : List (ℕ × StartupMove) :=
  let attempt : Attempt := ⟨"orders", none, none, true⟩
  let enter (t : ℕ) : List (ℕ × StartupMove) :=
    [(t, .build .step), (t, .build .step), (t, .build (.converted false)), (t, .build .step),
      (t, .build .step), (t, .build .step), (t, .build .step), (t, .init .call), (t, .init .step),
      (t, .init .step), (t, .init (.outcome .done)), (t, .init (.outcome .done)), (t, .init .step)]
  let call (t : ℕ) : List (ℕ × StartupMove) :=
    [(t, .build (.call attempt)), (t, .build .step), (t, .build (.abi 1))]
  call 0 ++ call 1 ++ enter 0 ++
    [(0, .init (.outcome (.panicked "drain"))), (0, .init .step), (0, .init .step), (0, .ret),
      (0, .build .step), (0, .build .step), (0, .build .step)] ++
    enter 1 ++
    [(1, .init (.outcome .done)), (1, .init .step), (1, .init .step), (1, .init .step),
      (1, .init .step), (1, .init .step), (1, .ret), (1, .build .step), (1, .build .step)] ++
    call 2 ++ [(2, .build .step), (2, .build .step), (2, .build .step)]

set_option maxRecDepth 20000 in
theorem startup_agrees_retryAfterPanic :
    ∃ c, (startupMachine ℕ).exec (startupMachine ℕ).start startupRun = some c ∧
      (c.threads 1).build.result = some (.ok ()) ∧
      (c.threads 2).build.result = some (.error ⟨-1, "only one llingr instance per process"⟩) ∧
      StartupAgreement c := by
  refine ⟨_, rfl, rfl, rfl, startup_agrees ⟨startupRun, rfl⟩⟩

end LlingrKafka.Engine
