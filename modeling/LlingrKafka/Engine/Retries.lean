import LlingrKafka.Bridge.Consumer
import LlingrKafka.Engine.Publication

/-!
# Building again after a failure

A failed `build` takes its handler set back, but not its registrations: the
bridge's callback set survives until an init succeeds.  The five callbacks every
attempt registers come out the same; the bandwidth callback is registered only by
attempts with metrics and never unregistered.

The invariant `Collected` makes that precise: before the registration is sealed,
the bandwidth callback is registered exactly when some attempt that boxed a
handler set had metrics.  So an attempt without metrics sees its own callback set
if and only if no such attempt came before it.
-/

namespace LlingrKafka.Engine

open Bridge

variable {ι : Type*}

/-- `u` has boxed a handler set with a bandwidth handler. -/
def BandwidthBox (g : EngineShared ι) (u : ι) : Prop :=
  ∃ box, g.boxes u = some box ∧ box.handlers.bandwidth = true

/-- Registration is open, and the bandwidth callback is registered exactly when one
of the `among` has boxed a bandwidth handler. -/
def Collected (g : EngineShared ι) (among : ι → Prop) : Prop :=
  g.registration.callbacksSealed = false ∧
    (g.registration.loadCallbacks.bandwidth = true ↔ ∃ u, among u ∧ BandwidthBox g u)

/-- The five callbacks every attempt registers are registered. -/
def Registered (g : EngineShared ι) : Prop :=
  g.registration.loadCallbacks =
    ⟨true, true, true, true, true, g.registration.loadCallbacks.bandwidth⟩

/-- Outside the lock, as long as no engine exists. -/
def RetryInv (g : EngineShared ι) : Prop :=
  g.initLock = none → g.inited = false → Collected g fun _ => True

/-- What a call knows of the registration where it stands. -/
def PcRetry (t : ι) (g : EngineShared ι) : BuildPc ι → Prop
  | .check | .unlock _ => g.inited = false → Collected g fun _ => True
  | .config | .realise | .box _ | .rollback _ | .dropPublished _ _ => Collected g fun _ => True
  | .swap _ | .register _ => Collected g (· ≠ t)
  | .init => Collected g (fun _ => True) ∧ Registered g
  | _ => True

/-- A thread's part in it. -/
def RetryOwn (t : ι) (g : EngineShared ι) : BuildAct ι → Prop
  | .idle => True
  | .call _ pc => PcRetry t g pc

theorem registerTrampolines_open (bandwidthEnabled : Bool) {reg : Registration}
    (hopen : reg.callbacksSealed = false) :
    (registerTrampolines bandwidthEnabled reg).callbacksSealed = false ∧
      (registerTrampolines bandwidthEnabled reg).loadCallbacks =
        ⟨true, true, true, true, true, reg.loadCallbacks.bandwidth || bandwidthEnabled⟩ := by
  cases bandwidthEnabled with
  | false => simp [registerTrampolines, llingrOnProcess, llingrOnDeadletter, llingrOnMetrics,
      llingrOnShutdown, llingrOnLog, Registration.setCallback, hopen, Registration.loadCallbacks]
  | true => simp [registerTrampolines, llingrOnProcess, llingrOnDeadletter, llingrOnMetrics,
      llingrOnShutdown, llingrOnLog, llingrOnBandwidth, Registration.setCallback, hopen,
      Registration.loadCallbacks]

/-- The invariant reads the registration and the bandwidth handlers on the heap. -/
theorem Collected.congr {g g' : EngineShared ι} {among : ι → Prop}
    (hreg : g'.registration = g.registration)
    (hboxes : ∀ u, BandwidthBox g' u ↔ BandwidthBox g u) (h : Collected g among) :
    Collected g' among := by
  unfold Collected
  rw [hreg]
  simp only [hboxes]
  exact h

variable [DecidableEq ι]

theorem bandwidthBox_dropBox {g : EngineShared ι} (owner u : ι) :
    BandwidthBox (dropBox g owner) u ↔ BandwidthBox g u := by
  unfold BandwidthBox
  rw [dropBox_boxes]
  split
  · rename_i hu
    subst hu
    simp [HandlerBox.drop]
  · rfl

/-- A step of a call keeps what is known of the registration. -/
theorem retry_own {t : ι} {attempt : Attempt} {g g' : EngineShared ι} {pc pc' : BuildPc ι}
    (hinv : RetryInv g) (hpc : PcOwn t g pc) (hattempt : PcAttempt attempt pc)
    (hbox : ∀ box, g.boxes t = some box → BoxOf attempt box)
    (hown : PcRetry t g pc) (h : BuildStep t attempt g pc g' pc') :
    RetryInv g' ∧ PcRetry t g' pc' := by
  have hheld : ∀ {g' : EngineShared ι}, g'.initLock = some t → RetryInv g' := by
    intro g' hlock hnone
    rw [hlock] at hnone
    cases hnone
  cases h with
  | deferred message herror => exact ⟨hinv, trivial⟩
  | undeferred hnone => exact ⟨hinv, trivial⟩
  | abiMismatch reported => exact ⟨hinv, trivial⟩
  | abi => exact ⟨hinv, trivial⟩
  | lock hfree => exact ⟨hheld rfl, hinv hfree⟩
  | inited hinited => exact ⟨hinv, hown⟩
  | fresh hfresh => exact ⟨hinv, hown hfresh⟩
  | interiorNul => exact ⟨hinv, fun _ => hown⟩
  | converted => exact ⟨hinv, hown⟩
  | realised realised hrealised => exact ⟨hinv, hown⟩
  | bindFailed text => exact ⟨hinv, fun _ => hown⟩
  | box realised =>
      obtain ⟨hlock, hnone, _⟩ := hpc
      refine ⟨hheld hlock, hown.1, ?_⟩
      -- the new box is the caller's own; the boxes of the others are the old ones
      change g.registration.loadCallbacks.bandwidth = true ↔ _
      rw [hown.2]
      constructor
      · rintro ⟨u, _, box, hu, hbandwidth⟩
        have hne : u ≠ t := by
          rintro rfl
          rw [hnone] at hu
          cases hu
        exact ⟨u, hne, box, (Function.update_of_ne hne _ _).trans hu, hbandwidth⟩
      · rintro ⟨u, hne, box, hu, hbandwidth⟩
        exact ⟨u, trivial, box, (Function.update_of_ne hne _ _).symm.trans hu, hbandwidth⟩
  | swap realised hnull => exact ⟨hheld hpc.1, hown⟩
  | occupied realised previous hsome => exact ⟨hheld hpc.1, trivial⟩
  | restore previous => exact hpc.elim
  | refuse => exact hpc.elim
  | register realised =>
      obtain ⟨hlock, ⟨box, hstored, _⟩, _⟩ := hpc
      obtain ⟨hsealed, hload⟩ := registerTrampolines_open realised.isSome hown.1
      obtain ⟨before, hbefore, hhandlers⟩ := hbox box hstored
      -- the caller's own box has a bandwidth handler exactly when metrics are configured
      have hmine : BandwidthBox g t ↔ realised.isSome = true := by
        constructor
        · rintro ⟨box', hstored', hbandwidth⟩
          rw [hstored, Option.some_inj] at hstored'
          rw [← hstored', hhandlers] at hbandwidth
          rw [hattempt, ← hbefore]
          exact hbandwidth
        · intro hsome
          refine ⟨box, hstored, ?_⟩
          rw [hhandlers]
          exact hbefore.trans (hattempt.symm.trans hsome)
      refine ⟨hheld hlock, ⟨hsealed, ?_⟩, ?_⟩
      · change (registerTrampolines realised.isSome g.registration).loadCallbacks.bandwidth = true ↔
          ∃ u, True ∧ BandwidthBox g u
        rw [hload]
        simp only [Bool.or_eq_true, hown.2, ← hmine]
        constructor
        · rintro (⟨u, _, hu⟩ | ht)
          · exact ⟨u, trivial, hu⟩
          · exact ⟨t, trivial, ht⟩
        · rintro ⟨u, _, hu⟩
          rcases eq_or_ne u t with rfl | hne
          · exact .inr hu
          · exact .inl ⟨u, hne, hu⟩
      · change (registerTrampolines realised.isSome g.registration).loadCallbacks = _
        rw [hload]
  | initFailed rc text hrc => exact ⟨hinv, hown.1⟩
  | initialised => exact ⟨hheld hpc.1, trivial⟩
  | rollback err => exact ⟨hheld hpc.1, hown⟩
  | nothingPublished err => exact hpc.elim
  | dropPublished owner err =>
      obtain ⟨_, hlock, _⟩ := hpc
      have hcollected : Collected g fun _ => True := hown
      exact ⟨hheld hlock,
        fun _ => Collected.congr (g := g) rfl (bandwidthBox_dropBox owner) hcollected⟩
  | setInited =>
      refine ⟨hheld hpc.1, fun hinited => ?_⟩
      cases hinited
  | unlock result => exact ⟨fun _ => hown, trivial⟩

omit [DecidableEq ι] in
/-- What is known inside the lock is known whatever the pc, once nothing relevant
changes. -/
theorem PcRetry.congr {t : ι} {g g' : EngineShared ι} {pc : BuildPc ι}
    (hreg : g'.registration = g.registration) (hboxes : g'.boxes = g.boxes)
    (hinited : g'.inited = g.inited) (h : PcRetry t g pc) : PcRetry t g' pc := by
  have hsame : ∀ u, BandwidthBox g' u ↔ BandwidthBox g u := by
    intro u
    unfold BandwidthBox
    rw [hboxes]
  cases pc with
  | check => exact fun hfresh => (h (hinited.symm.trans hfresh)).congr hreg hsame
  | unlock result => exact fun hfresh => (h (hinited.symm.trans hfresh)).congr hreg hsame
  | config => exact Collected.congr hreg hsame h
  | realise => exact Collected.congr hreg hsame h
  | box realised => exact Collected.congr hreg hsame h
  | rollback err => exact Collected.congr hreg hsame h
  | dropPublished published err => exact Collected.congr hreg hsame h
  | swap realised => exact Collected.congr hreg hsame h
  | register realised => exact Collected.congr hreg hsame h
  | init =>
      refine ⟨h.1.congr hreg hsame, ?_⟩
      unfold Registered
      rw [hreg]
      exact h.2
  | _ => trivial

/-- A call outside the lock changes nothing that matters here. -/
theorem BuildStep.outside_lock {t : ι} {attempt : Attempt} {g g' : EngineShared ι}
    {pc pc' : BuildPc ι} (h : BuildStep t attempt g pc g' pc') (hpc : PcOwn t g pc)
    (hnot : g.initLock ≠ some t) :
    g'.registration = g.registration ∧ g'.boxes = g.boxes ∧ g'.inited = g.inited := by
  cases h with
  | box realised => exact absurd hpc.1 hnot
  | restore previous => exact hpc.elim
  | refuse => exact hpc.elim
  | register realised => exact absurd hpc.1 hnot
  | initialised => exact absurd hpc.1 hnot
  | dropPublished owner err => exact absurd hpc.2.1 hnot
  | setInited => exact absurd hpc.1 hnot
  | _ => exact ⟨rfl, rfl, rfl⟩

omit [DecidableEq ι] in
/-- A call that knows something of the registration holds the lock. -/
theorem PcRetry.of_outside {u : ι} {g g' : EngineShared ι} {pc : BuildPc ι} (hpc : PcOwn u g pc)
    (hnot : g.initLock ≠ some u) (_h : PcRetry u g pc) : PcRetry u g' pc := by
  cases pc with
  | dropPublished published err =>
      cases published with
      | none => exact hpc.elim
      | some owner => exact absurd hpc.2.1 hnot
  | check => exact absurd hpc.1 hnot
  | unlock result =>
      cases result with
      | ok value => exact absurd hpc.1 hnot
      | error err => exact absurd hpc.1 hnot
  | config => exact absurd hpc.1 hnot
  | realise => exact absurd hpc.1 hnot
  | box realised => exact absurd hpc.1 hnot
  | rollback err => exact absurd hpc.1 hnot
  | swap realised => exact absurd hpc.1 hnot
  | register realised => exact absurd hpc.1 hnot
  | init => exact absurd hpc.1 hnot
  | _ => trivial

variable {c : BuildCfg ι}

/-- The registration is as the history of boxes says, in every reachable state. -/
theorem retry_holds (hreach : (buildMachine ι).Reachable c) :
    Program.Holds RetryInv RetryOwn c := by
  obtain ⟨labels, hrun⟩ := hreach
  have hstart : Program.Holds (fun g => BuildInv g ∧ RetryInv g)
      (fun t g l => BuildOwn t g l ∧ RetryOwn t g l) (buildMachine ι).start := by
    obtain ⟨hinv, hown⟩ := build_holds (Machine.reachable_start (buildMachine ι))
    refine ⟨⟨hinv, fun _ _ => ⟨rfl, ?_⟩⟩, fun t => ⟨hown t, trivial⟩⟩
    constructor
    · intro hregistered
      cases hregistered
    · rintro ⟨_, _, _, hnone, _⟩
      cases hnone
  have hholds := Program.inv_of_own_and_others (G := fun _ _ _ _ => True) ?_ ?_ hstart
    (Machine.guarded_of_forall (fun _ _ => trivial) _ labels) hrun
  · exact ⟨hholds.1.2, fun t => (hholds.2 t).2⟩
  · rintro t g l move g' l' ⟨hinv, hretry⟩ ⟨hown, hretryOwn⟩ _ hstep
    obtain ⟨hinv', hown', _⟩ := buildAct_own hinv hown hstep
    rcases buildStep_cases hstep with ⟨_, rfl, rfl, rfl⟩ | ⟨attempt, pc, pc', rfl, rfl, hcall⟩
    · exact ⟨⟨hinv', hretry⟩, hown', trivial⟩
    · obtain ⟨hpc, hattempt, hbox⟩ := hown
      obtain ⟨hretry', hpc'⟩ := retry_own hretry hpc hattempt hbox hretryOwn hcall
      exact ⟨⟨hinv', hretry'⟩, hown', hpc'⟩
  · rintro t u g l m move g' l' hu ⟨hinv, hretry⟩ ⟨hown, _⟩ ⟨hother, hretryOther⟩ _ hstep
    obtain ⟨_, _, hle⟩ := buildAct_own hinv hown hstep
    refine ⟨hother.mono hu hle, ?_⟩
    cases m with
    | idle => trivial
    | call attempt pc =>
        rcases buildStep_cases hstep with ⟨_, _, _, rfl⟩ | ⟨_, pct, _, rfl, _, hcall⟩
        · exact hretryOther
        -- either `u` keeps `t` out of what it knows, or it knows nothing yet
        · by_cases hheld : g.initLock = some u
          · have hnot : g.initLock ≠ some t := by
              rw [hheld]
              intro hboth
              exact hu (Option.some_inj.mp hboth)
            obtain ⟨hreg, hboxes, hinited⟩ := hcall.outside_lock hown.1 hnot
            exact PcRetry.congr hreg hboxes hinited hretryOther
          · exact PcRetry.of_outside hother.1 hheld hretryOther

/-! ## Two attempts -/

/-- The callback set the bridge sees when the attempt is the only one. -/
def soleCallbacks (attempt : Attempt) : CallbackSet :=
  (registerTrampolines attempt.metrics.isSome .start).loadCallbacks

omit [DecidableEq ι] in
theorem soleCallbacks_eq (attempt : Attempt) :
    soleCallbacks attempt = ⟨true, true, true, true, true, attempt.metrics.isSome⟩ := by
  have hopen : Registration.start.callbacksSealed = false := rfl
  unfold soleCallbacks
  rw [(registerTrampolines_open attempt.metrics.isSome hopen).2]
  rfl

/-- During its `llingr_init` the bridge sees what it would see had the attempt been
the only one. -/
structure HistoryIndependent (g : EngineShared ι) (attempt : Attempt) : Prop where
  callbacks : g.registration.loadCallbacks = soleCallbacks attempt
  consumer : ∀ service bw, buildFranzConsumer g.registration.loadCallbacks service bw =
    buildFranzConsumer (soleCallbacks attempt) service bw
  bandwidth : g.registration.loadCallbacks.bandwidth = true ↔ attempt.metrics.isSome = true

/-- Another attempt that configured metrics has got as far as boxing its handler
set, which it registers callbacks for and takes back when `llingr_init` fails. -/
def MetricsBefore (before : BuildCfg ι) (t : ι) : Prop :=
  ∃ u, u ≠ t ∧ ∃ attempt pc, before.threads u = .call attempt pc ∧
    attempt.metrics.isSome = true ∧ (before.shared.boxes u).isSome = true

omit [DecidableEq ι] in
/-- The bandwidth handlers on the heap are those of the attempts with metrics. -/
theorem metricsBefore_iff {t : ι} (hown : ∀ u, BuildOwn u c.shared (c.threads u)) :
    MetricsBefore c t ↔ ∃ u, u ≠ t ∧ BandwidthBox c.shared u := by
  constructor
  · rintro ⟨u, hu, attempt, pc, hlocal, hmetrics, hsome⟩
    have hmine := hown u
    rw [hlocal] at hmine
    obtain ⟨box, hbox⟩ := Option.isSome_iff_exists.mp hsome
    obtain ⟨realised, hrealised, hhandlers⟩ := hmine.2.2 box hbox
    exact ⟨u, hu, box, hbox, by rw [hhandlers]; exact hrealised.trans hmetrics⟩
  · rintro ⟨u, hu, box, hbox, hbandwidth⟩
    have hmine := hown u
    cases hlocal : c.threads u with
    | idle =>
        rw [hlocal] at hmine
        rw [hmine.2] at hbox
        cases hbox
    | call attempt pc =>
        rw [hlocal] at hmine
        obtain ⟨realised, hrealised, hhandlers⟩ := hmine.2.2 box hbox
        rw [hhandlers] at hbandwidth
        exact ⟨u, hu, attempt, pc, hlocal, hrealised.symm.trans hbandwidth, by simp [hbox]⟩

/-- **When a retry is history-independent.**  In every run, the attempt whose
`llingr_init` is about to be called sees its own callback set if and only if it
configures metrics itself or no attempt with metrics got that far before it. -/
theorem historyIndependent_iff {t : ι} {attempt : Attempt}
    (hreach : (buildMachine ι).Reachable c) (hcall : c.threads t = .call attempt .init) :
    HistoryIndependent c.shared attempt ↔
      (attempt.metrics.isSome = true ∨ ¬ MetricsBefore c t) := by
  have hown := (build_holds hreach).2
  obtain ⟨⟨_, hbandwidth⟩, hregistered⟩ : Collected c.shared (fun _ => True) ∧
      Registered c.shared := by
    have hretry := (retry_holds hreach).2 t
    rw [hcall] at hretry
    exact hretry
  -- the box of the attempt itself has a handler exactly when it configures metrics
  have hmine : BandwidthBox c.shared t ↔ attempt.metrics.isSome = true := by
    have hthis := hown t
    rw [hcall] at hthis
    obtain ⟨⟨_, ⟨box, hbox, _⟩, _⟩, _, hof⟩ := hthis
    obtain ⟨realised, hrealised, hhandlers⟩ := hof box hbox
    constructor
    · rintro ⟨box', hbox', hset⟩
      rw [hbox, Option.some_inj] at hbox'
      rw [← hbox', hhandlers] at hset
      exact hrealised.symm.trans hset
    · intro hmetrics
      exact ⟨box, hbox, by rw [hhandlers]; exact hrealised.trans hmetrics⟩
  have hkey : (c.shared.registration.loadCallbacks.bandwidth = true ↔
      attempt.metrics.isSome = true) ↔ (attempt.metrics.isSome = true ∨ ¬ MetricsBefore c t) := by
    rw [hbandwidth, metricsBefore_iff hown, ← hmine]
    constructor
    · intro hsame
      by_cases ht : BandwidthBox c.shared t
      · exact .inl ht
      · exact .inr fun ⟨u, _, hu⟩ => ht (hsame.mp ⟨u, trivial, hu⟩)
    · intro hcases
      constructor
      · rintro ⟨u, _, hu⟩
        rcases hcases with ht | hnone
        · exact ht
        · rcases eq_or_ne u t with rfl | hne
          · exact hu
          · exact absurd ⟨u, hne, hu⟩ hnone
      · intro ht
        exact ⟨t, trivial, ht⟩
  rw [← hkey]
  constructor
  · intro h
    exact h.bandwidth
  · intro hsame
    -- five callbacks are registered by every attempt, so the sixth decides
    have hseen : c.shared.registration.loadCallbacks = soleCallbacks attempt := by
      rw [hregistered, soleCallbacks_eq]
      congr 1
      exact Bool.eq_iff_iff.mpr hsame
    exact ⟨hseen, fun service bw => by rw [hseen], hsame⟩

/-- An attempt without metrics fails in `llingr_init`, and one with metrics has
registered its callbacks. -/
def metricsLastRun : List (ℕ × BuildMove) :=
  let plain : Attempt := ⟨"orders", none, none, false⟩
  let counting : Attempt := ⟨"orders", none, some .registry, false⟩
  [(0, .call plain), (0, .step), (0, .abi 1), (0, .step), (0, .step), (0, .converted false),
    (0, .step), (0, .step), (0, .step), (0, .step), (0, .initReturns (-4) "broker unreachable"),
    (0, .step), (0, .step), (0, .step), (1, .call counting), (1, .step), (1, .abi 1), (1, .step),
    (1, .step), (1, .converted false), (1, .step), (1, .step), (1, .step), (1, .step)]

theorem historyIndependent_iff_metricsLast :
    ∃ c, (buildMachine ℕ).exec (buildMachine ℕ).start metricsLastRun = some c ∧
      HistoryIndependent c.shared ⟨"orders", none, some .registry, false⟩ :=
  ⟨_, rfl, (historyIndependent_iff (t := 1) ⟨metricsLastRun, rfl⟩ rfl).mpr (.inl rfl)⟩

/-- A retry without metrics after an attempt that configured them and failed in
`llingr_init` sees the bandwidth callback of the failed attempt, and succeeds. -/
theorem not_historyIndependent :
    ∃ before after, (buildMachine ℕ).Takes (buildMachine ℕ).start retryAfterInitFailureRun before
        (1, .initReturns 0 "") after ∧
      before.threads 1 = .call ⟨"orders", none, none, true⟩ .init ∧
      ¬ HistoryIndependent before.shared ⟨"orders", none, none, true⟩ := by
  refine ⟨_, _, ⟨retryAfterInitFailureRun.take 24, retryAfterInitFailureRun.drop 25, rfl, rfl, rfl⟩,
    rfl, fun h => ?_⟩
  have hmetrics := h.bandwidth.mp rfl
  cases hmetrics

end LlingrKafka.Engine
