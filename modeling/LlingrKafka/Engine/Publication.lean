import LlingrKafka.Engine.Build

/-!
# Publishing the handler set

`build` publishes its handler set before `llingr_init` and takes it back when
that fails.  The invariant says, for each place a call can stand, what it knows of
the pointer, of the init flag and of its own box (`BuildOwn`).  Everything from
the look at the flag to the unlock happens under `INIT_LOCK`, so no other call can
change any of it (`BuildLe`); in particular the pointer is null when a call swaps
its own set in, and the refusal behind that swap is dead code.
-/

namespace LlingrKafka.Engine

open Bridge

variable {ι : Type*} [DecidableEq ι]

/-- The steps of `build`. -/
inductive BuildStep (t : ι) (attempt : Attempt) (g : EngineShared ι) :
    BuildPc ι → EngineShared ι → BuildPc ι → Prop
  | deferred (message : String) (h : attempt.deferredError = some message) :
      BuildStep t attempt g .deferred g (.returned (.error ⟨-5, message⟩))
  | undeferred (h : attempt.deferredError = none) : BuildStep t attempt g .deferred g .abi
  | abiMismatch (reported : ℤ) :
      BuildStep t attempt g .abi g
        (.returned (.error (abiMismatchError llingrAbiVersion reported)))
  | abi : BuildStep t attempt g .abi g .lock
  | lock (hfree : g.initLock = none) :
      BuildStep t attempt g .lock { g with initLock := some t } .check
  | inited (h : g.inited = true) :
      BuildStep t attempt g .check g
        (.unlock (.error ⟨-1, "only one llingr instance per process"⟩))
  | fresh (h : g.inited = false) : BuildStep t attempt g .check g .config
  | interiorNul :
      BuildStep t attempt g .config g
        (.unlock (.error ⟨-2, "configuration contains an interior NUL byte"⟩))
  | converted : BuildStep t attempt g .config g .realise
  | realised (realised : Option RealisedMetrics) (h : realised.isSome = attempt.metrics.isSome) :
      BuildStep t attempt g .realise g (.box realised)
  | bindFailed (text : String) :
      BuildStep t attempt g .realise g (.unlock (.error ⟨-6, text⟩))
  | box (realised : Option RealisedMetrics) :
      BuildStep t attempt g (.box realised)
        (storeBox g t ⟨attempt.handlers realised, 0, realised.any (·.exporter)⟩) (.swap realised)
  | swap (realised : Option RealisedMetrics) (hnull : g.handlers = none) :
      BuildStep t attempt g (.swap realised) { g with handlers := some t } (.register realised)
  | occupied (realised : Option RealisedMetrics) (previous : ι) (h : g.handlers = some previous) :
      BuildStep t attempt g (.swap realised) { g with handlers := some t } (.restore previous)
  | restore (previous : ι) :
      BuildStep t attempt g (.restore previous) { g with handlers := some previous } .refuse
  | refuse :
      BuildStep t attempt g .refuse (dropBox g t)
        (.unlock (.error ⟨-1, "handler set already published"⟩))
  | register (realised : Option RealisedMetrics) :
      BuildStep t attempt g (.register realised)
        { g with registration := registerTrampolines realised.isSome g.registration } .init
  | initFailed (rc : ℤ) (text : String) (h : rc ≠ 0) :
      BuildStep t attempt g .init g (.rollback ⟨rc, text⟩)
  | initialised :
      BuildStep t attempt g .init { g with registration := g.registration.sealCallbacks } .setInited
  | rollback (err : LlingrError) :
      BuildStep t attempt g (.rollback err) { g with handlers := none }
        (.dropPublished g.handlers err)
  | nothingPublished (err : LlingrError) :
      BuildStep t attempt g (.dropPublished none err) g (.unlock (.error err))
  | dropPublished (owner : ι) (err : LlingrError) :
      BuildStep t attempt g (.dropPublished (some owner) err) (dropBox g owner)
        (.unlock (.error err))
  | setInited : BuildStep t attempt g .setInited { g with inited := true } (.unlock (.ok ()))
  | unlock (result : BuildResult) :
      BuildStep t attempt g (.unlock result) { g with initLock := none } (.returned result)

theorem build_cases {t : ι} {attempt : Attempt} {g g' : EngineShared ι} {pc pc' : BuildPc ι}
    {move : BuildMove} (h : build t attempt g pc move = some (g', pc')) :
    BuildStep t attempt g pc g' pc' := by
  -- one case for each program counter, in the order of the source
  unfold build at h
  split at h
  · split at h <;> obtain ⟨rfl, rfl⟩ := Prod.mk.inj (Option.some_inj.mp h)
    · exact .deferred _ ‹_›
    · exact .undeferred ‹_›
  · split at h <;> obtain ⟨rfl, rfl⟩ := Prod.mk.inj (Option.some_inj.mp h)
    · exact .abiMismatch _
    · exact .abi
  · split at h
    · obtain ⟨rfl, rfl⟩ := Prod.mk.inj (Option.some_inj.mp h)
      exact .lock ‹_›
    · cases h
  · split at h <;> obtain ⟨rfl, rfl⟩ := Prod.mk.inj (Option.some_inj.mp h)
    · exact .inited ‹_›
    · exact .fresh (Bool.eq_false_iff.mpr ‹_›)
  · split at h <;> obtain ⟨rfl, rfl⟩ := Prod.mk.inj (Option.some_inj.mp h)
    · exact .interiorNul
    · exact .converted
  · split at h
    · obtain ⟨rfl, rfl⟩ := Prod.mk.inj (Option.some_inj.mp h)
      exact .realised none (by simp [*])
    · obtain ⟨rfl, rfl⟩ := Prod.mk.inj (Option.some_inj.mp h)
      exact .realised _ (by simp [*])
    · cases h
  · split at h
    · obtain ⟨rfl, rfl⟩ := Prod.mk.inj (Option.some_inj.mp h)
      exact .realised _ (by simp [*])
    · obtain ⟨rfl, rfl⟩ := Prod.mk.inj (Option.some_inj.mp h)
      exact .bindFailed _
    · cases h
  · obtain ⟨rfl, rfl⟩ := Prod.mk.inj (Option.some_inj.mp h)
    exact .box _
  · split at h <;> obtain ⟨rfl, rfl⟩ := Prod.mk.inj (Option.some_inj.mp h)
    · exact .swap _ ‹_›
    · exact .occupied _ _ ‹_›
  · obtain ⟨rfl, rfl⟩ := Prod.mk.inj (Option.some_inj.mp h)
    exact .restore _
  · obtain ⟨rfl, rfl⟩ := Prod.mk.inj (Option.some_inj.mp h)
    exact .refuse
  · obtain ⟨rfl, rfl⟩ := Prod.mk.inj (Option.some_inj.mp h)
    exact .register _
  · split at h <;> obtain ⟨rfl, rfl⟩ := Prod.mk.inj (Option.some_inj.mp h)
    · exact .initFailed _ _ ‹_›
    · exact .initialised
  · obtain ⟨rfl, rfl⟩ := Prod.mk.inj (Option.some_inj.mp h)
    exact .rollback _
  · split at h <;> obtain ⟨rfl, rfl⟩ := Prod.mk.inj (Option.some_inj.mp h)
    · exact .nothingPublished _
    · exact .dropPublished _ _
  · obtain ⟨rfl, rfl⟩ := Prod.mk.inj (Option.some_inj.mp h)
    exact .setInited
  · obtain ⟨rfl, rfl⟩ := Prod.mk.inj (Option.some_inj.mp h)
    exact .unlock _
  · cases h

theorem callbacksSealed_registerTrampolines (bandwidth : Bool) (reg : Registration) :
    (registerTrampolines bandwidth reg).callbacksSealed = reg.callbacksSealed := by
  cases bandwidth <;>
    simp [registerTrampolines, llingrOnProcess, llingrOnDeadletter, llingrOnMetrics,
      llingrOnShutdown, llingrOnLog, llingrOnBandwidth]

/-- A move of a thread starts a call or is a step of one. -/
theorem buildStep_cases {t : ι} {g g' : EngineShared ι} {l l' : BuildAct ι} {move : BuildMove}
    (h : buildStep t g l move = some (g', l')) :
    (∃ attempt, l = .idle ∧ l' = .call attempt .deferred ∧ g' = g) ∨
      ∃ attempt pc pc', l = .call attempt pc ∧ l' = .call attempt pc' ∧
        BuildStep t attempt g pc g' pc' := by
  unfold buildStep at h
  split at h
  · obtain ⟨rfl, rfl⟩ := Prod.mk.inj (Option.some_inj.mp h)
    exact .inl ⟨_, rfl, rfl, rfl⟩
  · cases h
  · simp only [Option.map_eq_some_iff, Prod.mk.injEq] at h
    obtain ⟨⟨g', pc'⟩, hstep, rfl, rfl⟩ := h
    exact .inr ⟨_, _, pc', rfl, rfl, build_cases hstep⟩

/-! ## The invariant -/

/-- The box of `t` is on the heap and has not been freed. -/
def Boxed (t : ι) (g : EngineShared ι) : Prop := ∃ box, g.boxes t = some box ∧ box.frees = 0

/-- `t` has no box, or its box was freed once and serves no endpoint any more. -/
def Disposed (t : ι) (g : EngineShared ι) : Prop :=
  ∀ box, g.boxes t = some box → box.frees = 1 ∧ box.serving = false

/-- No engine exists and no set is published. -/
def Vacant (g : EngineShared ι) : Prop := g.inited = false ∧ g.handlers = none

structure BuildInv (g : EngineShared ι) : Prop where
  flag : g.initLock = none → g.handlers.isSome = g.inited
  published : ∀ t, g.handlers = some t → Boxed t g
  frees : ∀ t box, g.boxes t = some box → box.frees ≤ 1

/-- What a call knows where it stands. -/
def PcOwn (t : ι) (g : EngineShared ι) : BuildPc ι → Prop
  | .deferred | .abi | .lock => g.initLock ≠ some t ∧ g.boxes t = none
  | .check => g.initLock = some t ∧ g.boxes t = none ∧ g.handlers.isSome = g.inited
  | .config | .realise | .box _ => g.initLock = some t ∧ g.boxes t = none ∧ Vacant g
  | .swap _ => g.initLock = some t ∧ Boxed t g ∧ Vacant g
  | .dropPublished (some owner) _ => owner = t ∧ g.initLock = some t ∧ Boxed t g ∧ Vacant g
  | .restore _ | .refuse | .dropPublished none _ => False
  | .register _ | .init | .rollback _ | .setInited =>
      g.initLock = some t ∧ Boxed t g ∧ g.inited = false ∧ g.handlers = some t
  | .unlock (.ok _) => g.initLock = some t ∧ Boxed t g ∧ g.inited = true ∧ g.handlers = some t
  | .unlock (.error _) => g.initLock = some t ∧ Disposed t g ∧ g.handlers.isSome = g.inited
  | .returned (.ok _) => g.initLock ≠ some t ∧ Boxed t g ∧ g.inited = true ∧ g.handlers = some t
  | .returned (.error _) => g.initLock ≠ some t ∧ Disposed t g

/-- The box holds the handler set of the attempt. -/
def BoxOf (attempt : Attempt) (box : HandlerBox) : Prop :=
  ∃ realised : Option RealisedMetrics, realised.isSome = attempt.metrics.isSome ∧
    box.handlers = attempt.handlers realised

/-- Metrics are realised exactly when they are configured. -/
def PcAttempt (attempt : Attempt) : BuildPc ι → Prop
  | .box realised | .swap realised | .register realised =>
      realised.isSome = attempt.metrics.isSome
  | _ => True

/-- A thread's part in the publication. -/
def BuildOwn (t : ι) (g : EngineShared ι) : BuildAct ι → Prop
  | .idle => g.initLock ≠ some t ∧ g.boxes t = none
  | .call attempt pc => PcOwn t g pc ∧ PcAttempt attempt pc ∧
      ∀ box, g.boxes t = some box → BoxOf attempt box

/-- What a step of `t` leaves to the other calls. -/
structure BuildLe (t : ι) (g g' : EngineShared ι) : Prop where
  held : ∀ u, u ≠ t → g.initLock = some u →
    g'.initLock = some u ∧ g'.inited = g.inited ∧ g'.handlers = g.handlers
  notHeld : ∀ u, u ≠ t → g.initLock ≠ some u → g'.initLock ≠ some u
  boxes : ∀ u, u ≠ t → g'.boxes u = g.boxes u
  inited : g.inited = true → g'.inited = true ∧ g'.handlers = g.handlers

omit [DecidableEq ι] in
theorem BuildLe.refl (t : ι) (g : EngineShared ι) : BuildLe t g g where
  held := by intro u _ hu; exact ⟨hu, rfl, rfl⟩
  notHeld := by intro u _ hu; exact hu
  boxes := by intro u _; rfl
  inited := by intro h; exact ⟨h, rfl⟩

omit [DecidableEq ι] in
/-- The holder of the lock disturbs nobody, as long as it leaves an existing engine
alone and frees no box but its own. -/
theorem BuildLe.of_holder {t : ι} {g g' : EngineShared ι} (hholder : g.initLock = some t)
    (hlock : g'.initLock = none ∨ g'.initLock = some t)
    (hboxes : ∀ u, u ≠ t → g'.boxes u = g.boxes u)
    (hinited : g.inited = true → g'.inited = true ∧ g'.handlers = g.handlers) : BuildLe t g g' where
  held := by
    intro u hu hother
    exact absurd (Program.eq_of_owner hholder hother) hu
  notHeld := by
    intro u hu _
    exact Program.not_owner hu hlock
  boxes := hboxes
  inited := hinited

omit [DecidableEq ι] in
/-- Without an engine there is nothing to leave alone. -/
theorem vacuous_inited {g : EngineShared ι} {p : Prop} (h : g.inited = false) :
    g.inited = true → p := by
  intro htrue
  rw [h] at htrue
  cases htrue

omit [DecidableEq ι] in
/-- While the lock is held nothing is asked of the flag. -/
theorem BuildInv.of_held {t : ι} {g : EngineShared ι} (hheld : g.initLock = some t)
    (hpublished : ∀ u, g.handlers = some u → Boxed u g)
    (hfrees : ∀ u box, g.boxes u = some box → box.frees ≤ 1) : BuildInv g where
  flag := fun hfree => absurd (hheld.symm.trans hfree) (Option.some_ne_none t)
  published := hpublished
  frees := hfrees

omit [DecidableEq ι] in
theorem Vacant.flag {g : EngineShared ι} (h : Vacant g) : g.handlers.isSome = g.inited := by
  rw [h.1, h.2]
  rfl

theorem dropBox_boxes {g : EngineShared ι} {t : ι} (u : ι) :
    (dropBox g t).boxes u = if u = t then (g.boxes t).map HandlerBox.drop else g.boxes u := by
  unfold dropBox
  by_cases hu : u = t
  · subst hu
    simp
  · simp [hu]

/-- Freeing a box that was never freed disposes of it. -/
theorem disposed_dropBox {g : EngineShared ι} {t : ι} (hboxed : Boxed t g) :
    Disposed t (dropBox g t) := by
  obtain ⟨box, hbox, hfrees⟩ := hboxed
  intro box' hbox'
  rw [dropBox_boxes, if_pos rfl, hbox] at hbox'
  cases hbox'
  exact ⟨by simp [HandlerBox.drop, hfrees], rfl⟩

omit [DecidableEq ι] in
theorem disposed_of_none {g : EngineShared ι} {t : ι} (hnone : g.boxes t = none) :
    Disposed t g := by
  intro box hbox
  rw [hnone] at hbox
  cases hbox

/-- A step of a call keeps the invariant and what the call knows. -/
theorem build_own {t : ι} {attempt : Attempt} {g g' : EngineShared ι} {pc pc' : BuildPc ι}
    (hinv : BuildInv g) (hown : PcOwn t g pc) (h : BuildStep t attempt g pc g' pc') :
    BuildInv g' ∧ PcOwn t g' pc' ∧ BuildLe t g g' := by
  have hnever : ∀ {u}, (none : Option ι) ≠ some u := by
    intro u hu
    cases hu
  cases h with
  -- an early exit has boxed nothing, so there is nothing to free
  | deferred message herror => exact ⟨hinv, ⟨hown.1, disposed_of_none hown.2⟩, .refl t g⟩
  | undeferred hnone => exact ⟨hinv, hown, .refl t g⟩
  | abiMismatch reported => exact ⟨hinv, ⟨hown.1, disposed_of_none hown.2⟩, .refl t g⟩
  | abi => exact ⟨hinv, hown, .refl t g⟩
  | lock hfree =>
      refine ⟨{ hinv with flag := ?_ }, ⟨rfl, hown.2, hinv.flag hfree⟩,
        ⟨?_, ?_, fun u _ => rfl, fun hinited => ⟨hinited, rfl⟩⟩⟩
      · intro hnone
        cases hnone
      · intro u _ hheld
        rw [hfree] at hheld
        cases hheld
      · intro u hu _
        exact Program.not_owner hu (.inr rfl)
  | inited hinited =>
      exact ⟨hinv, ⟨hown.1, disposed_of_none hown.2.1, hown.2.2⟩, .refl t g⟩
  | fresh hfresh =>
      obtain ⟨hheld, hnone, hflag⟩ := hown
      refine ⟨hinv, ⟨hheld, hnone, hfresh, ?_⟩, .refl t g⟩
      rw [hfresh] at hflag
      exact Option.not_isSome_iff_eq_none.mp (by simp [hflag])
  | interiorNul =>
      obtain ⟨hheld, hnone, hvacant⟩ := hown
      exact ⟨hinv, ⟨hheld, disposed_of_none hnone, hvacant.flag⟩, .refl t g⟩
  | converted => exact ⟨hinv, hown, .refl t g⟩
  | realised realised hrealised => exact ⟨hinv, hown, .refl t g⟩
  | bindFailed text =>
      obtain ⟨hheld, hnone, hvacant⟩ := hown
      exact ⟨hinv, ⟨hheld, disposed_of_none hnone, hvacant.flag⟩, .refl t g⟩
  | box realised =>
      obtain ⟨hheld, hnone, hvacant⟩ := hown
      refine ⟨.of_held hheld ?_ ?_, ⟨hheld, ⟨_, Function.update_self .., rfl⟩, hvacant⟩,
        .of_holder hheld (.inr hheld) (fun u hu => Function.update_of_ne hu _ _)
          (vacuous_inited hvacant.1)⟩
      · intro u hu
        exact absurd (hvacant.2.symm.trans hu) hnever
      · intro u box hbox
        by_cases hu : u = t
        · subst hu
          simp only [storeBox, Function.update_self, Option.some_inj] at hbox
          rw [← hbox]
          exact Nat.zero_le 1
        · simp only [storeBox, Function.update_of_ne hu] at hbox
          exact hinv.frees u box hbox
  -- the set is published: from here on a rollback has to take it back
  | swap realised hnull =>
      obtain ⟨hheld, hboxed, hvacant⟩ := hown
      refine ⟨.of_held hheld ?_ hinv.frees, ⟨hheld, hboxed, hvacant.1, rfl⟩,
        .of_holder hheld (.inr hheld) (fun u _ => rfl) (vacuous_inited hvacant.1)⟩
      intro u hu
      obtain rfl := Option.some_inj.mp hu
      exact hboxed
  -- no engine exists under the lock, so the pointer is null and the refusal is dead code
  | occupied realised previous hsome =>
      have hnull := hown.2.2.2
      rw [hsome] at hnull
      cases hnull
  | restore previous => exact hown.elim
  | refuse => exact hown.elim
  | register realised =>
      exact ⟨{ hinv with }, hown, .of_holder hown.1 (.inr hown.1) (fun u _ => rfl)
        (vacuous_inited hown.2.2.1)⟩
  | initFailed rc text hrc => exact ⟨hinv, hown, .refl t g⟩
  | initialised =>
      exact ⟨{ hinv with }, hown, .of_holder hown.1 (.inr hown.1) (fun u _ => rfl)
        (vacuous_inited hown.2.2.1)⟩
  | rollback err =>
      obtain ⟨hheld, hboxed, hfresh, hmine⟩ := hown
      rw [hmine]
      exact ⟨.of_held hheld (fun u hu => absurd hu hnever) hinv.frees,
        ⟨rfl, hheld, hboxed, hfresh, rfl⟩,
        .of_holder hheld (.inr hheld) (fun u _ => rfl) (vacuous_inited hfresh)⟩
  | nothingPublished err => exact hown.elim
  -- what the rollback took out is the own set, freed once and published no more
  | dropPublished owner err =>
      obtain ⟨rfl, hheld, hboxed, hfresh, hnull⟩ := hown
      have hvacant : Vacant (dropBox g owner) := ⟨hfresh, hnull⟩
      refine ⟨.of_held hheld ?_ ?_, ⟨hheld, disposed_dropBox hboxed, hvacant.flag⟩,
        .of_holder hheld (.inr hheld) ?_ (vacuous_inited hfresh)⟩
      · intro u hu
        exact absurd (hnull.symm.trans hu) hnever
      · intro u box hbox
        by_cases hu : u = owner
        · subst hu
          rw [(disposed_dropBox hboxed box hbox).1]
        · rw [dropBox_boxes, if_neg hu] at hbox
          exact hinv.frees u box hbox
      · intro u hu
        rw [dropBox_boxes, if_neg hu]
  | setInited =>
      obtain ⟨hheld, hboxed, hfresh, hmine⟩ := hown
      exact ⟨.of_held hheld hinv.published hinv.frees, ⟨hheld, hboxed, rfl, hmine⟩,
        .of_holder hheld (.inr hheld) (fun u _ => rfl) (vacuous_inited hfresh)⟩
  | unlock result =>
      cases result with
      | ok value =>
          obtain ⟨hheld, hboxed, hinited, hmine⟩ := hown
          refine ⟨⟨?_, hinv.published, hinv.frees⟩, ⟨hnever, hboxed, hinited, hmine⟩,
            .of_holder hheld (.inl rfl) (fun u _ => rfl) fun _ => ⟨hinited, rfl⟩⟩
          intro _
          change g.handlers.isSome = g.inited
          rw [hmine, hinited]
          rfl
      | error err =>
          obtain ⟨hheld, hdisposed, hflag⟩ := hown
          exact ⟨⟨fun _ => hflag, hinv.published, hinv.frees⟩, ⟨hnever, hdisposed⟩,
            .of_holder hheld (.inl rfl) (fun u _ => rfl) fun hinited => ⟨hinited, rfl⟩⟩

/-- A call only ever boxes the handler set of its own attempt. -/
theorem build_attempt {t : ι} {attempt : Attempt} {g g' : EngineShared ι} {pc pc' : BuildPc ι}
    (hattempt : PcAttempt attempt pc) (hbox : ∀ box, g.boxes t = some box → BoxOf attempt box)
    (h : BuildStep t attempt g pc g' pc') :
    PcAttempt attempt pc' ∧ ∀ box, g'.boxes t = some box → BoxOf attempt box := by
  have hdrop : ∀ owner box, (dropBox g owner).boxes t = some box → BoxOf attempt box := by
    intro owner box hdropped
    rw [dropBox_boxes] at hdropped
    split at hdropped
    · rename_i howner
      subst howner
      obtain ⟨before, hbefore, rfl⟩ := Option.map_eq_some_iff.mp hdropped
      exact hbox before hbefore
    · exact hbox box hdropped
  cases h with
  | realised realised hrealised => exact ⟨hrealised, hbox⟩
  | box realised =>
      refine ⟨hattempt, fun box hstored => ?_⟩
      simp only [storeBox, Function.update_self, Option.some_inj] at hstored
      exact ⟨realised, hattempt, by rw [← hstored]⟩
  | swap realised hnull => exact ⟨hattempt, hbox⟩
  | refuse => exact ⟨trivial, hdrop t⟩
  | dropPublished owner err => exact ⟨trivial, hdrop owner⟩
  | _ => exact ⟨trivial, hbox⟩

/-- A move of a thread. -/
theorem buildAct_own {t : ι} {g g' : EngineShared ι} {l l' : BuildAct ι} {move : BuildMove}
    (hinv : BuildInv g) (hown : BuildOwn t g l) (h : buildStep t g l move = some (g', l')) :
    BuildInv g' ∧ BuildOwn t g' l' ∧ BuildLe t g g' := by
  rcases buildStep_cases h with ⟨attempt, rfl, rfl, rfl⟩ | ⟨attempt, pc, pc', rfl, rfl, hstep⟩
  · refine ⟨hinv, ⟨hown, trivial, fun box hbox => ?_⟩, .refl t _⟩
    rw [hown.2] at hbox
    cases hbox
  · obtain ⟨hpc, hattempt, hbox⟩ := hown
    obtain ⟨hinv', hpc', hle⟩ := build_own hinv hpc hstep
    exact ⟨hinv', ⟨hpc', build_attempt hattempt hbox hstep⟩, hle⟩

omit [DecidableEq ι] in
theorem Boxed.mono {t u : ι} {g g' : EngineShared ι} (hu : u ≠ t) (hle : BuildLe t g g')
    (h : Boxed u g) : Boxed u g' := by
  unfold Boxed
  rw [hle.boxes u hu]
  exact h

omit [DecidableEq ι] in
theorem Disposed.mono {t u : ι} {g g' : EngineShared ι} (hu : u ≠ t) (hle : BuildLe t g g')
    (h : Disposed u g) : Disposed u g' := by
  unfold Disposed
  rw [hle.boxes u hu]
  exact h

omit [DecidableEq ι] in
theorem PcOwn.mono {t u : ι} {g g' : EngineShared ι} {pc : BuildPc ι} (hu : u ≠ t)
    (hle : BuildLe t g g') (h : PcOwn u g pc) : PcOwn u g' pc := by
  have hboxes := hle.boxes u hu
  -- what `u` knows of the lock and the flag holds on while it has the lock
  have hvacant : g.initLock = some u → Vacant g → Vacant g' := by
    rintro hheld ⟨hfresh, hnull⟩
    obtain ⟨_, hinited, hhandlers⟩ := hle.held u hu hheld
    exact ⟨hinited.trans hfresh, hhandlers.trans hnull⟩
  have hbefore : g.initLock ≠ some u ∧ g.boxes u = none →
      g'.initLock ≠ some u ∧ g'.boxes u = none :=
    fun ⟨hnot, hnone⟩ => ⟨hle.notHeld u hu hnot, hboxes.trans hnone⟩
  have hvacated : g.initLock = some u ∧ g.boxes u = none ∧ Vacant g →
      g'.initLock = some u ∧ g'.boxes u = none ∧ Vacant g' :=
    fun ⟨hheld, hnone, hv⟩ => ⟨(hle.held u hu hheld).1, hboxes.trans hnone, hvacant hheld hv⟩
  have hpublished : g.initLock = some u ∧ Boxed u g ∧ g.inited = false ∧ g.handlers = some u →
      g'.initLock = some u ∧ Boxed u g' ∧ g'.inited = false ∧ g'.handlers = some u := by
    rintro ⟨hheld, hboxed, hfresh, hmine⟩
    obtain ⟨hheld', hinited, hhandlers⟩ := hle.held u hu hheld
    exact ⟨hheld', hboxed.mono hu hle, hinited.trans hfresh, hhandlers.trans hmine⟩
  cases pc with
  | deferred => exact hbefore h
  | abi => exact hbefore h
  | lock => exact hbefore h
  | check =>
      obtain ⟨hheld, hnone, hflag⟩ := h
      obtain ⟨hheld', hinited, hhandlers⟩ := hle.held u hu hheld
      exact ⟨hheld', hboxes.trans hnone, by rw [hinited, hhandlers]; exact hflag⟩
  | config => exact hvacated h
  | realise => exact hvacated h
  | box realised => exact hvacated h
  | swap realised =>
      obtain ⟨hheld, hboxed, hv⟩ := h
      exact ⟨(hle.held u hu hheld).1, hboxed.mono hu hle, hvacant hheld hv⟩
  | restore previous => exact h.elim
  | refuse => exact h.elim
  | register realised => exact hpublished h
  | init => exact hpublished h
  | rollback err => exact hpublished h
  | setInited => exact hpublished h
  | dropPublished published err =>
      cases published with
      | none => exact h.elim
      | some owner =>
          obtain ⟨howner, hheld, hboxed, hv⟩ := h
          exact ⟨howner, (hle.held u hu hheld).1, hboxed.mono hu hle, hvacant hheld hv⟩
  | unlock result =>
      cases result with
      | ok value =>
          obtain ⟨hheld, hboxed, hinited, hmine⟩ := h
          obtain ⟨hinited', hhandlers⟩ := hle.inited hinited
          exact ⟨(hle.held u hu hheld).1, hboxed.mono hu hle, hinited', hhandlers.trans hmine⟩
      | error err =>
          obtain ⟨hheld, hdisposed, hflag⟩ := h
          obtain ⟨hheld', hinited, hhandlers⟩ := hle.held u hu hheld
          exact ⟨hheld', hdisposed.mono hu hle, by rw [hinited, hhandlers]; exact hflag⟩
  | returned result =>
      cases result with
      | ok value =>
          obtain ⟨hnot, hboxed, hinited, hmine⟩ := h
          obtain ⟨hinited', hhandlers⟩ := hle.inited hinited
          exact ⟨hle.notHeld u hu hnot, hboxed.mono hu hle, hinited', hhandlers.trans hmine⟩
      | error err => exact ⟨hle.notHeld u hu h.1, h.2.mono hu hle⟩

omit [DecidableEq ι] in
theorem BuildOwn.mono {t u : ι} {g g' : EngineShared ι} {l : BuildAct ι} (hu : u ≠ t)
    (hle : BuildLe t g g') (h : BuildOwn u g l) : BuildOwn u g' l := by
  cases l with
  | idle => exact ⟨hle.notHeld u hu h.1, (hle.boxes u hu).trans h.2⟩
  | call attempt pc =>
      refine ⟨PcOwn.mono hu hle h.1, h.2.1, ?_⟩
      rw [hle.boxes u hu]
      exact h.2.2

variable {labels : List (ι × BuildMove)} {c d : BuildCfg ι}

/-- Every reachable state keeps the publication protocol. -/
theorem build_holds (hreach : (buildMachine ι).Reachable c) :
    Program.Holds BuildInv BuildOwn c := by
  obtain ⟨labels, hrun⟩ := hreach
  have hstart : Program.Holds BuildInv BuildOwn (buildMachine ι).start := by
    refine ⟨⟨fun _ => rfl, fun t ht => ?_, fun t box hbox => ?_⟩, fun t => ⟨fun ht => ?_, rfl⟩⟩
    · cases ht
    · cases hbox
    · cases ht
  refine Program.inv_of_own_and_others (G := fun _ _ _ _ => True) ?_ ?_ hstart
    (Machine.guarded_of_forall (fun _ _ => trivial) _ labels) hrun
  · intro t g l move g' l' hinv hown _ hstep
    obtain ⟨hinv', hown', _⟩ := buildAct_own hinv hown hstep
    exact ⟨hinv', hown'⟩
  · intro t u g l m move g' l' hu hinv hown hother _ hstep
    obtain ⟨_, _, hle⟩ := buildAct_own hinv hown hstep
    exact hother.mono hu hle

theorem buildStep_of_next {t : ι} {move : BuildMove}
    (h : (buildMachine ι).next c (t, move) = some d) :
    buildStep t c.shared (c.threads t) move = some (d.shared, d.threads t) :=
  (Program.next_eq_some h).1

/-! ## What one call does along a run -/

/-- The call has set the init flag. -/
def BuildAct.Succeeding : BuildAct ι → Prop
  | .call _ (.unlock (.ok _)) | .call _ (.returned (.ok _)) => True
  | _ => False

/-- Only a call that succeeds writes the init flag. -/
theorem BuildStep.inited_eq {t : ι} {attempt : Attempt} {g g' : EngineShared ι}
    {pc pc' : BuildPc ι} (h : BuildStep t attempt g pc g' pc') :
    g'.inited = g.inited ∨ (BuildAct.call attempt pc').Succeeding := by
  cases h with
  | setInited => exact .inr trivial
  | _ => exact .inl rfl

theorem BuildStep.succeeding {t : ι} {attempt : Attempt} {g g' : EngineShared ι}
    {pc pc' : BuildPc ι} (h : BuildStep t attempt g pc g' pc')
    (hsucceeding : (BuildAct.call attempt pc).Succeeding) :
    (BuildAct.call attempt pc').Succeeding := by
  cases h with
  | unlock result =>
      cases result with
      | ok value => trivial
      | error err => exact hsucceeding.elim
  | _ => exact hsucceeding.elim

/-- A step that touches a box does not touch the pointer. -/
theorem BuildStep.boxes_or_handlers {t : ι} {attempt : Attempt} {g g' : EngineShared ι}
    {pc pc' : BuildPc ι} (h : BuildStep t attempt g pc g' pc') :
    g'.boxes = g.boxes ∨ g'.handlers = g.handlers := by
  cases h with
  | box realised => exact .inr rfl
  | refuse => exact .inr rfl
  | dropPublished owner err => exact .inr rfl
  | _ => exact .inl rfl

theorem build_succeeding_of_exec {t : ι} (hsucceeding : (c.threads t).Succeeding)
    (hrun : (buildMachine ι).exec c labels = some d) : (d.threads t).Succeeding := by
  refine Program.local_of_exec (J := fun _ => True) (fun _ _ _ _ _ => trivial) ?_ trivial
    hsucceeding hrun
  intro e move g' l' _ hbefore hstep
  rcases buildStep_cases hstep with ⟨_, hidle, _, _⟩ | ⟨attempt, pc, pc', hlocal, rfl, hcall⟩
  · rw [hidle] at hbefore
    exact hbefore.elim
  · rw [hlocal] at hbefore
    exact hcall.succeeding hbefore

omit [DecidableEq ι] in
/-- A call that has set the flag owns the published set. -/
theorem published_of_succeeding {t : ι} (hown : BuildOwn t c.shared (c.threads t))
    (hsucceeding : (c.threads t).Succeeding) :
    c.shared.inited = true ∧ c.shared.handlers = some t ∧ ∃ attempt pc box,
      c.threads t = .call attempt pc ∧ c.shared.boxes t = some box ∧ box.frees = 0 ∧
        BoxOf attempt box := by
  have key : ∀ attempt pc, c.threads t = .call attempt pc → Boxed t c.shared →
      ∃ attempt pc box, c.threads t = .call attempt pc ∧ c.shared.boxes t = some box ∧
        box.frees = 0 ∧ BoxOf attempt box := by
    intro attempt pc hlocal hboxed
    obtain ⟨box, hbox, hfrees⟩ := hboxed
    rw [hlocal] at hown
    exact ⟨attempt, pc, box, hlocal, hbox, hfrees, hown.2.2 box hbox⟩
  cases hlocal : c.threads t with
  | idle =>
      rw [hlocal] at hsucceeding
      exact hsucceeding.elim
  | call attempt pc =>
      rw [hlocal] at hown hsucceeding
      cases pc with
      | unlock result =>
          cases result with
          | ok value =>
              obtain ⟨⟨_, hboxed, hinited, hmine⟩, _⟩ := hown
              rw [← hlocal]
              exact ⟨hinited, hmine, key _ _ hlocal hboxed⟩
          | error err => exact hsucceeding.elim
      | returned result =>
          cases result with
          | ok value =>
              obtain ⟨⟨_, hboxed, hinited, hmine⟩, _⟩ := hown
              rw [← hlocal]
              exact ⟨hinited, hmine, key _ _ hlocal hboxed⟩
          | error err => exact hsucceeding.elim
      | _ => exact hsucceeding.elim

omit [DecidableEq ι] in
theorem succeeding_of_result {l : BuildAct ι} (h : l.result = some (.ok ())) : l.Succeeding := by
  cases l with
  | idle => cases h
  | call attempt pc =>
      cases pc with
      | returned result =>
          cases h
          trivial
      | _ => cases h

omit [DecidableEq ι] in
theorem not_succeeding_of_error {l : BuildAct ι} {err : LlingrError}
    (h : l.result = some (.error err)) : ¬ l.Succeeding := by
  cases l with
  | idle => cases h
  | call attempt pc =>
      cases pc with
      | returned result =>
          cases h
          exact id
      | _ => cases h

omit [DecidableEq ι] in
/-- What a call that has returned an error knows. -/
theorem own_of_error {t : ι} {err : LlingrError} (hown : BuildOwn t c.shared (c.threads t))
    (h : (c.threads t).result = some (.error err)) :
    c.shared.initLock ≠ some t ∧ Disposed t c.shared := by
  cases hlocal : c.threads t with
  | idle =>
      rw [hlocal] at h
      cases h
  | call attempt pc =>
      rw [hlocal] at h hown
      cases pc with
      | returned result =>
          cases h
          exact hown.1
      | _ => cases h

/-! ## The contract -/

/-- A call stands at the refusal of an already published set. -/
def BuildAct.Refusing : BuildAct ι → Prop
  | .call _ (.restore _) | .call _ .refuse => True
  | _ => False

/-- What `build` promises of a run of concurrent calls that ends in `c`. -/
structure HandlerPublication (labels : List (ι × BuildMove)) (c : BuildCfg ι) : Prop where
  /-- At most one call returns `Ok`. -/
  one_ok : ∀ t u, (c.threads t).result = some (.ok ()) → (c.threads u).result = some (.ok ()) →
    t = u
  /-- Outside `INIT_LOCK` the pointer and the flag agree. -/
  pointer_iff_flag : c.shared.initLock = none →
    (c.shared.handlers.isSome = true ↔ c.shared.inited = true)
  /-- Once a call has returned `Ok`, its own set is published, alive, and stays. -/
  own_set : ∀ earlier later d t, labels = earlier ++ later →
    (buildMachine ι).exec (buildMachine ι).start earlier = some d →
    (d.threads t).result = some (.ok ()) → c.shared.handlers = some t ∧ ∃ attempt pc box,
      c.threads t = .call attempt pc ∧ c.shared.boxes t = some box ∧ box.frees = 0 ∧
        BoxOf attempt box
  /-- The set of a call that returned an error was freed once, with the endpoint it bound, and
  the call has released the lock. -/
  disposed : ∀ t err, (c.threads t).result = some (.error err) →
    Disposed t c.shared ∧ c.shared.initLock ≠ some t
  /-- No set is freed twice, and none while it is published. -/
  freed_once : ∀ t box, c.shared.boxes t = some box → box.frees ≤ 1 ∧
    (c.shared.handlers = some t → box.frees = 0)
  freed_unpublished : ∀ label before after t box box',
    (buildMachine ι).Takes (buildMachine ι).start labels before label after →
    before.shared.boxes t = some box → after.shared.boxes t = some box' →
    box.frees ≠ box'.frees → before.shared.handlers ≠ some t ∧ after.shared.handlers ≠ some t
  /-- The refusal is unreachable. -/
  no_refusal : ∀ t, ¬ (c.threads t).Refusing
  /-- A call that returned an error wrote the flag at none of its steps, nor the pointer of an
  existing engine. -/
  error_leaves : ∀ t err, (c.threads t).result = some (.error err) → ∀ before move after,
    (buildMachine ι).Takes (buildMachine ι).start labels before (t, move) after →
    after.shared.inited = before.shared.inited ∧
      (before.shared.inited = true → after.shared.handlers = before.shared.handlers)

omit [DecidableEq ι] in
theorem not_refusing {t : ι} {g : EngineShared ι} {l : BuildAct ι} (hown : BuildOwn t g l) :
    ¬ l.Refusing := by
  intro hrefusing
  cases l with
  | idle => exact hrefusing
  | call attempt pc =>
      cases pc with
      | restore previous => exact hown.1
      | refuse => exact hown.1
      | _ => exact hrefusing

/-- **The publication invariant of `build`** under every interleaving. -/
theorem build_publication (hrun : (buildMachine ι).exec (buildMachine ι).start labels = some c) :
    HandlerPublication labels c := by
  obtain ⟨hinv, hown⟩ := build_holds (c := c) ⟨labels, hrun⟩
  -- a step of the run leaves a reachable state for a reachable state
  have hbefore : ∀ {label before after},
      (buildMachine ι).Takes (buildMachine ι).start labels before label after →
      Program.Holds BuildInv BuildOwn before ∧ Program.Holds BuildInv BuildOwn after := by
    intro label before after htakes
    have hreach := htakes.reachable
    obtain ⟨_, _, _, _, hnext⟩ := htakes
    exact ⟨build_holds hreach, build_holds (hreach.next hnext)⟩
  refine ⟨?_, ?_, ?_, ?_, ?_, ?_, fun t => not_refusing (hown t), ?_⟩
  · intro t u ht hu
    have hmine := (published_of_succeeding (hown t) (succeeding_of_result ht)).2.1
    have hyours := (published_of_succeeding (hown u) (succeeding_of_result hu)).2.1
    exact Option.some_inj.mp (hmine.symm.trans hyours)
  · intro hfree
    rw [hinv.flag hfree]
  · rintro earlier later d t rfl hearlier hok
    obtain ⟨e, he, hlater⟩ := Machine.exec_append.mp hrun
    rw [hearlier, Option.some_inj] at he
    subst he
    -- the flag is never cleared, so the call still owns the set at the end
    have hsucceeding := build_succeeding_of_exec (succeeding_of_result hok) hlater
    exact (published_of_succeeding (hown t) hsucceeding).2
  · intro t err herr
    obtain ⟨hfree, hdisposed⟩ := own_of_error (hown t) herr
    exact ⟨hdisposed, hfree⟩
  · intro t box hbox
    refine ⟨hinv.frees t box hbox, fun hpublished => ?_⟩
    obtain ⟨box', hbox', hfrees⟩ := hinv.published t hpublished
    rw [hbox, Option.some_inj] at hbox'
    rw [hbox', hfrees]
  · rintro ⟨u, move⟩ before after t box box' htakes hbox hbox' hfreed
    obtain ⟨⟨hinv₁, _⟩, hinv₂, _⟩ := hbefore htakes
    -- a published set is unfreed before the step and after it
    have hunfreed : ∀ {e : BuildCfg ι} {b : HandlerBox}, BuildInv e.shared →
        e.shared.boxes t = some b → e.shared.handlers = some t → b.frees = 0 := by
      intro e b hinv hb hpublished
      obtain ⟨b', hb', hfrees⟩ := hinv.published t hpublished
      rw [hb, Option.some_inj] at hb'
      rw [hb', hfrees]
    obtain ⟨_, _, _, _, hnext⟩ := htakes
    rcases buildStep_cases (buildStep_of_next hnext) with ⟨_, _, _, hsame⟩ | ⟨_, _, _, _, _, hstep⟩
    · rw [hsame, hbox, Option.some_inj] at hbox'
      exact absurd (by rw [hbox']) hfreed
    -- a step frees a set or moves the pointer, but not both
    · rcases hstep.boxes_or_handlers with hboxes | hhandlers
      · rw [hboxes, hbox, Option.some_inj] at hbox'
        exact absurd (by rw [hbox']) hfreed
      · have hnot : before.shared.handlers ≠ some t := by
          intro hpublished
          have hzero := hunfreed hinv₁ hbox hpublished
          have hzero' := hunfreed hinv₂ hbox' (hhandlers.trans hpublished)
          exact hfreed (hzero.trans hzero'.symm)
        exact ⟨hnot, by rw [hhandlers]; exact hnot⟩
  · intro t err herr before move after htakes
    obtain ⟨rest, hrest⟩ := htakes.exec_after hrun
    obtain ⟨⟨hinv₁, hown₁⟩, _⟩ := hbefore htakes
    obtain ⟨_, _, _, _, hnext⟩ := htakes
    have hstep := buildStep_of_next hnext
    obtain ⟨_, _, hle⟩ := buildAct_own hinv₁ (hown₁ t) hstep
    refine ⟨?_, fun hinited => (hle.inited hinited).2⟩
    rcases buildStep_cases hstep with ⟨_, _, _, hsame⟩ | ⟨attempt, _, pc', _, hafter, hcall⟩
    · rw [hsame]
    -- the one step that writes the flag belongs to a call that returns `Ok`
    · refine hcall.inited_eq.resolve_right fun hsucceeding => ?_
      rw [← hafter] at hsucceeding
      exact not_succeeding_of_error herr (build_succeeding_of_exec hsucceeding hrest)

/-- A build with a scrape endpoint fails in `llingr_init` while a second one waits
for the lock; the second succeeds, and a third comes late. -/
def retryAfterInitFailureRun : List (ℕ × BuildMove) :=
  let serving : Attempt := ⟨"orders", none, some .serve, false⟩
  let plain : Attempt := ⟨"orders", none, none, true⟩
  [(0, .call serving), (1, .call plain), (0, .step), (1, .step), (1, .abi 1), (0, .abi 1),
    (0, .step), (0, .step), (0, .converted false), (0, .bound none), (0, .step), (0, .step),
    (0, .step), (0, .initReturns (-4) "broker unreachable"), (0, .step), (0, .step), (0, .step),
    (1, .step), (1, .step), (1, .converted false), (1, .step), (1, .step), (1, .step), (1, .step),
    (1, .initReturns 0 ""), (1, .step), (1, .step), (2, .call serving), (2, .step), (2, .abi 1),
    (2, .step), (2, .step), (2, .step)]

theorem build_publication_retryAfterInitFailure :
    ∃ c, (buildMachine ℕ).exec (buildMachine ℕ).start retryAfterInitFailureRun = some c ∧
      (c.threads 0).result = some (.error ⟨-4, "broker unreachable"⟩) ∧
      (c.threads 1).result = some (.ok ()) ∧
      (c.threads 2).result = some (.error ⟨-1, "only one llingr instance per process"⟩) ∧
      HandlerPublication retryAfterInitFailureRun c :=
  ⟨_, rfl, rfl, rfl, rfl, build_publication rfl⟩

end LlingrKafka.Engine
