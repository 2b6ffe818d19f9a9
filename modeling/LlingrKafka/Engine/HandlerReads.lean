import LlingrKafka.Engine.Publication

/-!
# No trampoline reads a freed handler set

`handlers()` of `src/engine.rs` turns the pointer in `HANDLERS` into a reference
for as long as the trampoline runs, and `build` frees a set when `llingr_init`
fails.  What makes this sound is a promise about the engine, not about the code:

* during `llingr_init` only the log callback runs, on the thread that is inside
  the call;
* worker goroutines call back only after an `llingr_init` that returned 0.

Here the concurrent calls of `build` interleave with trampolines, `promise` says
whether the second half is kept, and `handler_reads_safe` shows that with it no
interleaving lets a trampoline hold a set that was freed.
-/

namespace LlingrKafka.Engine

open Bridge

/-- Where a trampoline stands: before its load of `HANDLERS`, or inside, with the
pointer it goes through until it returns. -/
inductive TrampolinePc (ι : Type*)
  | load
  | inside (ptr : Option ι)
  deriving DecidableEq

/-- A thread of the host that builds, with the log callback it may be inside of, or
a worker goroutine of the engine. -/
inductive CallbackAct (ι : Type*)
  | build (act : BuildAct ι) (log : Option (TrampolinePc ι))
  | worker (pc : TrampolinePc ι)
  | done
  deriving DecidableEq

inductive CallbackMove
  | build (move : BuildMove)
  | log
  | worker
  | step
  deriving DecidableEq, Repr

variable {ι : Type*}

/-- A trampoline: `handlers()`, and the return.  In between it may read the set at
any time. -/
def trampoline (g : EngineShared ι) : TrampolinePc ι → Option (TrampolinePc ι)
  | .load => some (.inside g.handlers)
  | .inside _ => none

/-- One move of thread `t`. -/
def callbackStep [DecidableEq ι] (promise : Bool) (t : ι) (g : EngineShared ι) :
    CallbackAct ι → CallbackMove → Option (EngineShared ι × CallbackAct ι)
  | .build act none, .build move =>
      (buildStep t g act move).map fun r => (r.1, .build r.2 none)
  | .build (.call attempt .init) none, .log =>
      some (g, .build (.call attempt .init) (some .load))
  | .build .idle none, .worker =>
      if promise && !g.registration.callbacksSealed then none else some (g, .worker .load)
  | .build act (some pc), .step => some (g, .build act (trampoline g pc))
  | .worker pc, .step => some (g, (trampoline g pc).elim .done .worker)
  | _, _ => none

/-- Concurrent calls of `build`, and the callbacks of the engine. -/
def callbackProgram (ι : Type*) [DecidableEq ι] (promise : Bool) :
    Program ι (EngineShared ι) (CallbackAct ι) CallbackMove where
  shared := ⟨none, false, none, fun _ => none, .start⟩
  fresh := .build .idle none
  step := callbackStep promise

abbrev CallbackCfg (ι : Type*) := Config ι (EngineShared ι) (CallbackAct ι)

abbrev callbackMachine (ι : Type*) [DecidableEq ι] (promise : Bool) :
    Machine (CallbackCfg ι) (ι × CallbackMove) :=
  (callbackProgram ι promise).machine

/-- The pointer a thread goes through. -/
def CallbackAct.inside : CallbackAct ι → Option (Option ι)
  | .build _ (some (.inside ptr)) | .worker (.inside ptr) => some ptr
  | _ => none

/-! ## The seal -/

/-- Outside the lock the registration is sealed when an engine exists, and a sealed
registration comes with a published set. -/
structure SealedInv (g : EngineShared ι) : Prop where
  flag : g.initLock = none → g.registration.callbacksSealed = g.inited
  published : g.registration.callbacksSealed = true → g.handlers.isSome = true

/-- What a call of `build` knows of the seal. -/
def PcSeal (g : EngineShared ι) : BuildPc ι → Prop
  | .deferred | .abi | .lock | .returned _ => True
  | .check | .unlock (.error _) => g.registration.callbacksSealed = g.inited
  | .setInited | .unlock (.ok _) => g.registration.callbacksSealed = true
  | _ => g.registration.callbacksSealed = false

def BuildSeal (g : EngineShared ι) : BuildAct ι → Prop
  | .idle => True
  | .call _ pc => PcSeal g pc

/-- What a step of `t` leaves of the seal to the others. -/
structure SealLe (t : ι) (g g' : EngineShared ι) : Prop where
  held : ∀ u, u ≠ t → g.initLock = some u →
    g'.registration.callbacksSealed = g.registration.callbacksSealed ∧ g'.inited = g.inited
  stays : g.registration.callbacksSealed = true →
    g'.registration.callbacksSealed = true ∧ g'.handlers = g.handlers

theorem SealLe.refl (t : ι) (g : EngineShared ι) : SealLe t g g :=
  ⟨fun _ _ _ => ⟨rfl, rfl⟩, fun h => ⟨h, rfl⟩⟩

/-- The holder of the lock may do anything to an unsealed registration. -/
theorem SealLe.of_open {t : ι} {g g' : EngineShared ι} (hholder : g.initLock = some t)
    (hopen : g.registration.callbacksSealed = false) : SealLe t g g' where
  held := by
    intro u hu hother
    exact absurd (Program.eq_of_owner hholder hother) hu
  stays := by
    intro hsealed
    rw [hopen] at hsealed
    cases hsealed

/-- A step that touches neither the seal nor the pointer, taken by the holder. -/
theorem SealLe.of_holder {t : ι} {g g' : EngineShared ι} (hholder : g.initLock = some t)
    (hsealed : g'.registration.callbacksSealed = g.registration.callbacksSealed)
    (hhandlers : g'.handlers = g.handlers) : SealLe t g g' where
  held := by
    intro u hu hother
    exact absurd (Program.eq_of_owner hholder hother) hu
  stays := by
    intro h
    exact ⟨hsealed.trans h, hhandlers⟩

theorem SealedInv.of_open {t : ι} {g : EngineShared ι} (hholder : g.initLock = some t)
    (hopen : g.registration.callbacksSealed = false) : SealedInv g where
  flag := fun hfree => absurd (hholder.symm.trans hfree) (Option.some_ne_none t)
  published := by
    intro hsealed
    rw [hopen] at hsealed
    cases hsealed

theorem SealedInv.of_published {t owner : ι} {g : EngineShared ι} (hholder : g.initLock = some t)
    (hhandlers : g.handlers = some owner) : SealedInv g where
  flag := fun hfree => absurd (hholder.symm.trans hfree) (Option.some_ne_none t)
  published := fun _ => by rw [hhandlers]; rfl

variable [DecidableEq ι]

/-- A step of a call keeps the seal and what the call knows of it. -/
theorem seal_own {t : ι} {attempt : Attempt} {g g' : EngineShared ι} {pc pc' : BuildPc ι}
    (hinv : SealedInv g) (hown : PcOwn t g pc) (hseal : PcSeal g pc)
    (h : BuildStep t attempt g pc g' pc') :
    SealedInv g' ∧ PcSeal g' pc' ∧ SealLe t g g' := by
  cases h with
  | deferred message herror => exact ⟨hinv, trivial, .refl t g⟩
  | undeferred hnone => exact ⟨hinv, trivial, .refl t g⟩
  | abiMismatch reported => exact ⟨hinv, trivial, .refl t g⟩
  | abi => exact ⟨hinv, trivial, .refl t g⟩
  | lock hfree =>
      refine ⟨⟨?_, hinv.published⟩, hinv.flag hfree, ?_, fun h => ⟨h, rfl⟩⟩
      · intro h
        cases h
      · intro u _ hother
        rw [hfree] at hother
        cases hother
  | inited hinited => exact ⟨hinv, hseal, .refl t g⟩
  | fresh hfresh => exact ⟨hinv, hseal.trans hfresh, .refl t g⟩
  -- the early exits under the lock find both flags still down
  | interiorNul => exact ⟨hinv, hseal.trans hown.2.2.1.symm, .refl t g⟩
  | converted => exact ⟨hinv, hseal, .refl t g⟩
  | realised realised hrealised => exact ⟨hinv, hseal, .refl t g⟩
  | bindFailed text => exact ⟨hinv, hseal.trans hown.2.2.1.symm, .refl t g⟩
  | box realised => exact ⟨.of_open hown.1 hseal, hseal, .of_open hown.1 hseal⟩
  | swap realised hnull => exact ⟨.of_open hown.1 hseal, hseal, .of_open hown.1 hseal⟩
  | occupied realised previous hsome => exact ⟨.of_open hown.1 hseal, hseal, .of_open hown.1 hseal⟩
  | restore previous => exact hown.elim
  | refuse => exact hown.elim
  | register realised =>
      have hopen := (callbacksSealed_registerTrampolines realised.isSome g.registration).trans hseal
      exact ⟨.of_open hown.1 hopen, hopen, .of_open hown.1 hseal⟩
  | initFailed rc text hrc => exact ⟨hinv, hseal, .refl t g⟩
  | initialised => exact ⟨.of_published hown.1 hown.2.2.2, rfl, .of_open hown.1 hseal⟩
  | rollback err => exact ⟨.of_open hown.1 hseal, hseal, .of_open hown.1 hseal⟩
  | nothingPublished err => exact hown.elim
  | dropPublished owner err =>
      obtain ⟨rfl, hheld, _, hfresh, _⟩ := hown
      exact ⟨.of_open hheld hseal, hseal.trans hfresh.symm, .of_open hheld hseal⟩
  | setInited =>
      exact ⟨.of_published hown.1 hown.2.2.2, hseal, .of_holder hown.1 rfl rfl⟩
  | unlock result =>
      cases result with
      | ok value =>
          obtain ⟨hheld, _, hinited, _⟩ := hown
          exact ⟨⟨fun _ => hseal.trans hinited.symm, hinv.published⟩, trivial,
            .of_holder hheld rfl rfl⟩
      | error err =>
          exact ⟨⟨fun _ => hseal, hinv.published⟩, trivial, .of_holder hown.1 rfl rfl⟩

omit [DecidableEq ι] in
/-- Inside the lock a call knows the seal; outside it asks nothing of it. -/
theorem PcSeal.mono {t u : ι} {g g' : EngineShared ι} {pc : BuildPc ι} (hu : u ≠ t)
    (hown : PcOwn u g pc) (hle : SealLe t g g') (h : PcSeal g pc) : PcSeal g' pc := by
  have hheld : g.initLock = some u →
      g'.registration.callbacksSealed = g.registration.callbacksSealed ∧ g'.inited = g.inited :=
    hle.held u hu
  cases pc with
  | deferred => trivial
  | abi => trivial
  | lock => trivial
  | returned result => trivial
  | restore previous => exact hown.elim
  | refuse => exact hown.elim
  | check =>
      obtain ⟨hsealed, hinited⟩ := hheld hown.1
      exact hsealed.trans (Eq.trans h hinited.symm)
  | unlock result =>
      cases result with
      | ok value => exact (hheld hown.1).1.trans h
      | error err =>
          obtain ⟨hsealed, hinited⟩ := hheld hown.1
          exact hsealed.trans (Eq.trans h hinited.symm)
  | dropPublished published err =>
      cases published with
      | none => exact hown.elim
      | some owner => exact (hheld hown.2.1).1.trans h
  | _ => exact (hheld hown.1).1.trans h

/-! ## Builds and callbacks together -/

/-- What a thread knows.  A log callback nested in `llingr_init` went through the set
of its own build; a worker exists only while the published set can no longer be taken
back. -/
def CallbackOwn (t : ι) (g : EngineShared ι) : CallbackAct ι → Prop
  | .build act log => BuildOwn t g act ∧ BuildSeal g act ∧
      ∀ pc, log = some pc → (∃ attempt, act = .call attempt .init) ∧
        ∀ ptr, pc = .inside ptr → ptr = some t
  | .worker pc => BuildOwn t g .idle ∧ g.registration.callbacksSealed = true ∧
      ∀ ptr, pc = .inside ptr → ptr = g.handlers
  | .done => BuildOwn t g .idle

/-- The moves of a thread. -/
inductive CallbackStep (t : ι) (g : EngineShared ι) :
    CallbackAct ι → EngineShared ι → CallbackAct ι → Prop
  | build {act act' : BuildAct ι} {move : BuildMove} {g' : EngineShared ι}
      (h : buildStep t g act move = some (g', act')) :
      CallbackStep t g (.build act none) g' (.build act' none)
  | log (attempt : Attempt) :
      CallbackStep t g (.build (.call attempt .init) none) g
        (.build (.call attempt .init) (some .load))
  | worker (h : g.registration.callbacksSealed = true) :
      CallbackStep t g (.build .idle none) g (.worker .load)
  | logLoad (act : BuildAct ι) :
      CallbackStep t g (.build act (some .load)) g (.build act (some (.inside g.handlers)))
  | logReturn (act : BuildAct ι) (ptr : Option ι) :
      CallbackStep t g (.build act (some (.inside ptr))) g (.build act none)
  | workerLoad : CallbackStep t g (.worker .load) g (.worker (.inside g.handlers))
  | workerReturn (ptr : Option ι) : CallbackStep t g (.worker (.inside ptr)) g .done

theorem callbackStep_cases {t : ι} {g g' : EngineShared ι} {l l' : CallbackAct ι}
    {move : CallbackMove} (h : callbackStep true t g l move = some (g', l')) :
    CallbackStep t g l g' l' := by
  unfold callbackStep at h
  split at h
  · simp only [Option.map_eq_some_iff, Prod.mk.injEq] at h
    obtain ⟨⟨g', act'⟩, hbuild, rfl, rfl⟩ := h
    exact .build hbuild
  · obtain ⟨rfl, rfl⟩ := Prod.mk.inj (Option.some_inj.mp h)
    exact .log _
  · split at h
    · cases h
    · rename_i hsealed
      obtain ⟨rfl, rfl⟩ := Prod.mk.inj (Option.some_inj.mp h)
      exact .worker (by simpa using hsealed)
  · rename_i pc
    obtain ⟨rfl, rfl⟩ := Prod.mk.inj (Option.some_inj.mp h)
    cases pc with
    | load => exact .logLoad _
    | inside ptr => exact .logReturn _ ptr
  · rename_i pc
    obtain ⟨rfl, rfl⟩ := Prod.mk.inj (Option.some_inj.mp h)
    cases pc with
    | load => exact .workerLoad
    | inside ptr => exact .workerReturn ptr
  · cases h

/-- What a step of a build leaves of the seal and of the others' part in it. -/
theorem buildAct_seal {t : ι} {g g' : EngineShared ι} {act act' : BuildAct ι} {move : BuildMove}
    (hinv : SealedInv g) (hown : BuildOwn t g act) (hseal : BuildSeal g act)
    (h : buildStep t g act move = some (g', act')) :
    SealedInv g' ∧ BuildSeal g' act' ∧ SealLe t g g' := by
  rcases buildStep_cases h with ⟨attempt, rfl, rfl, rfl⟩ | ⟨attempt, pc, pc', rfl, rfl, hstep⟩
  · exact ⟨hinv, trivial, .refl t _⟩
  · exact seal_own hinv hown.1 hseal hstep

/-- A move keeps the invariants, what the thread knows, and disturbs nobody. -/
theorem callback_own {t : ι} {g g' : EngineShared ι} {l l' : CallbackAct ι}
    (hinv : BuildInv g ∧ SealedInv g) (hown : CallbackOwn t g l) (h : CallbackStep t g l g' l') :
    (BuildInv g' ∧ SealedInv g') ∧ CallbackOwn t g' l' ∧ BuildLe t g g' ∧ SealLe t g g' := by
  cases h with
  | build hbuild =>
      obtain ⟨hbuildOwn, hseal, _⟩ := hown
      obtain ⟨hinv', hown', hle⟩ := buildAct_own hinv.1 hbuildOwn hbuild
      obtain ⟨hsealInv', hseal', hsealLe⟩ := buildAct_seal hinv.2 hbuildOwn hseal hbuild
      refine ⟨⟨hinv', hsealInv'⟩, ⟨hown', hseal', ?_⟩, hle, hsealLe⟩
      intro pc hpc
      cases hpc
  | log attempt =>
      refine ⟨hinv, ⟨hown.1, hown.2.1, ?_⟩, .refl t g, .refl t g⟩
      intro pc hpc
      cases hpc
      refine ⟨⟨attempt, rfl⟩, ?_⟩
      intro ptr hptr
      cases hptr
  | worker hsealed =>
      refine ⟨hinv, ⟨hown.1, hsealed, ?_⟩, .refl t g, .refl t g⟩
      intro ptr hptr
      cases hptr
  -- a log line inside `llingr_init` loads the set its own build has just published
  | logLoad act =>
      obtain ⟨hbuildOwn, hseal, hlog⟩ := hown
      obtain ⟨⟨attempt, rfl⟩, _⟩ := hlog .load rfl
      refine ⟨hinv, ⟨hbuildOwn, hseal, ?_⟩, .refl t g, .refl t g⟩
      intro pc hpc
      cases hpc
      refine ⟨⟨attempt, rfl⟩, ?_⟩
      intro ptr hptr
      cases hptr
      exact hbuildOwn.1.2.2.2
  | logReturn act ptr =>
      refine ⟨hinv, ⟨hown.1, hown.2.1, ?_⟩, .refl t g, .refl t g⟩
      intro pc hpc
      cases hpc
  | workerLoad =>
      refine ⟨hinv, ⟨hown.1, hown.2.1, ?_⟩, .refl t g, .refl t g⟩
      intro ptr hptr
      cases hptr
      rfl
  | workerReturn ptr => exact ⟨hinv, hown.1, .refl t g, .refl t g⟩

omit [DecidableEq ι] in
theorem CallbackOwn.mono {t u : ι} {g g' : EngineShared ι} {l : CallbackAct ι} (hu : u ≠ t)
    (hle : BuildLe t g g') (hseal : SealLe t g g') (h : CallbackOwn u g l) :
    CallbackOwn u g' l := by
  cases l with
  | build act log =>
      obtain ⟨hown, hbuildSeal, hlog⟩ := h
      refine ⟨hown.mono hu hle, ?_, hlog⟩
      cases act with
      | idle => trivial
      | call attempt pc => exact PcSeal.mono hu hown.1 hseal hbuildSeal
  | worker pc =>
      obtain ⟨hown, hsealed, hptr⟩ := h
      obtain ⟨hsealed', hhandlers⟩ := hseal.stays hsealed
      exact ⟨hown.mono hu hle, hsealed', fun ptr hpc => (hptr ptr hpc).trans hhandlers.symm⟩
  | done =>
      have hidle : BuildOwn u g .idle := h
      exact hidle.mono hu hle

variable {c : CallbackCfg ι}

/-- Every reachable state keeps the publication protocol, the seal, and what the
trampolines know. -/
theorem callback_holds (hreach : (callbackMachine ι true).Reachable c) :
    Program.Holds (fun g => BuildInv g ∧ SealedInv g) CallbackOwn c := by
  obtain ⟨labels, hrun⟩ := hreach
  have hstart : Program.Holds (fun g => BuildInv g ∧ SealedInv g) CallbackOwn
      (callbackMachine ι true).start := by
    refine ⟨⟨⟨fun _ => rfl, ?_, ?_⟩, ⟨fun _ => rfl, ?_⟩⟩, fun t => ⟨⟨?_, rfl⟩, trivial, ?_⟩⟩
    · intro t ht
      cases ht
    · intro t box hbox
      cases hbox
    · intro hsealed
      cases hsealed
    · intro ht
      cases ht
    · intro pc hpc
      cases hpc
  refine Program.inv_of_own_and_others (G := fun _ _ _ _ => True) ?_ ?_ hstart
    (Machine.guarded_of_forall (fun _ _ => trivial) _ labels) hrun
  · intro t g l move g' l' hinv hown _ hstep
    obtain ⟨hinv', hown', _⟩ := callback_own hinv hown (callbackStep_cases hstep)
    exact ⟨hinv', hown'⟩
  · intro t u g l m move g' l' hu hinv hown hother _ hstep
    obtain ⟨_, _, hle, hseal⟩ := callback_own hinv hown (callbackStep_cases hstep)
    exact hother.mono hu hle hseal

/-- What the trampolines may rely on. -/
structure HandlerReads (c : CallbackCfg ι) : Prop where
  /-- A set some trampoline goes through has not been freed. -/
  alive : ∀ t owner, (c.threads t).inside = some (some owner) →
    ∃ box, c.shared.boxes owner = some box ∧ box.frees = 0
  /-- A log line written during `llingr_init` reaches the set of the build inside it. -/
  init_log : ∀ t act ptr, c.threads t = .build act (some (.inside ptr)) →
    ptr = some t ∧ ∃ attempt box, act = .call attempt .init ∧ c.shared.boxes t = some box ∧
      BoxOf attempt box
  /-- A worker always finds a set, and it is the published one. -/
  worker : ∀ t ptr, c.threads t = .worker (.inside ptr) →
    ptr = c.shared.handlers ∧ ptr.isSome = true

/-- **No use after free.**  Whatever calls of `build` fail or succeed while callbacks
run, no trampoline holds a set that was freed. -/
theorem handler_reads_safe (hreach : (callbackMachine ι true).Reachable c) : HandlerReads c := by
  obtain ⟨⟨hinv, hseal⟩, hown⟩ := callback_holds hreach
  -- a log line is inside the set of its own build, which is not freed before `llingr_init` ends
  have hlog : ∀ t act ptr, c.threads t = .build act (some (.inside ptr)) →
      ptr = some t ∧ ∃ attempt box, act = .call attempt .init ∧ c.shared.boxes t = some box ∧
        box.frees = 0 ∧ BoxOf attempt box := by
    intro t act ptr hl
    have hmine := hown t
    rw [hl] at hmine
    obtain ⟨hbuild, _, hnested⟩ := hmine
    obtain ⟨⟨attempt, rfl⟩, hptr⟩ := hnested _ rfl
    obtain ⟨⟨_, ⟨box, hbox, hfrees⟩, _⟩, _, hboxOf⟩ := hbuild
    exact ⟨hptr ptr rfl, attempt, box, rfl, hbox, hfrees, hboxOf box hbox⟩
  -- a worker runs once registration is sealed, when the published set stays
  have hworker : ∀ t ptr, c.threads t = .worker (.inside ptr) →
      ptr = c.shared.handlers ∧ ptr.isSome = true := by
    intro t ptr hl
    have hmine := hown t
    rw [hl] at hmine
    obtain ⟨_, hsealed, hptr⟩ := hmine
    have hptr := hptr ptr rfl
    exact ⟨hptr, by rw [hptr]; exact hseal.published hsealed⟩
  refine ⟨?_, ?_, hworker⟩
  · intro t owner hinside
    cases hl : c.threads t with
    | build act log =>
        rw [hl] at hinside
        cases log with
        | none => cases hinside
        | some pc =>
            cases pc with
            | load => cases hinside
            | inside ptr =>
                obtain ⟨rfl, attempt, box, _, hbox, hfrees, _⟩ := hlog t act ptr hl
                obtain rfl := Option.some_inj.mp (Option.some_inj.mp hinside)
                exact ⟨box, hbox, hfrees⟩
    | worker pc =>
        rw [hl] at hinside
        cases pc with
        | load => cases hinside
        | inside ptr =>
            obtain rfl : ptr = some owner := Option.some_inj.mp hinside
            exact hinv.published owner (hworker t _ hl).1.symm
    | done =>
        rw [hl] at hinside
        cases hinside
  · intro t act ptr hl
    obtain ⟨hptr, attempt, box, hact, hbox, _, hboxOf⟩ := hlog t act ptr hl
    exact ⟨hptr, attempt, box, hact, hbox, hboxOf⟩

/-- The first build logs inside an `llingr_init` that fails; the second one logs and
succeeds, and a worker calls back while a third build is refused. -/
def logsAcrossRetryRun : List (ℕ × CallbackMove) :=
  let attempt : Attempt := ⟨"orders", none, none, false⟩
  [(0, .build (.call attempt)), (0, .build .step), (0, .build (.abi 1)), (0, .build .step),
    (0, .build .step), (0, .build (.converted false)), (0, .build .step), (0, .build .step),
    (0, .build .step), (0, .build .step), (0, .log), (0, .step), (0, .step),
    (0, .build (.initReturns (-4) "broker unreachable")), (0, .build .step), (0, .build .step),
    (0, .build .step), (1, .build (.call attempt)), (1, .build .step), (1, .build (.abi 1)),
    (1, .build .step), (1, .build .step), (1, .build (.converted false)), (1, .build .step),
    (1, .build .step), (1, .build .step), (1, .build .step), (1, .log), (1, .step), (1, .step),
    (1, .build (.initReturns 0 "")), (2, .worker), (1, .build .step), (1, .build .step),
    (2, .step), (3, .build (.call attempt)), (3, .build .step), (3, .build (.abi 1)),
    (3, .build .step), (3, .build .step), (3, .build .step)]

theorem handler_reads_safe_logsAcrossRetry :
    ∃ c, (callbackMachine ℕ true).exec (callbackMachine ℕ true).start logsAcrossRetryRun = some c ∧
      (c.threads 2).inside = some (some 1) ∧
      c.threads 3 = .build (.call ⟨"orders", none, none, false⟩
        (.returned (.error ⟨-1, "only one llingr instance per process"⟩))) none ∧
      HandlerReads c :=
  ⟨_, rfl, rfl, rfl, handler_reads_safe ⟨logsAcrossRetryRun, rfl⟩⟩

end LlingrKafka.Engine
