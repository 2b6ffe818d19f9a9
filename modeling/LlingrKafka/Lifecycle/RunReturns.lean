import LlingrKafka.Lifecycle.RunDone

/-!
# What `llingr_run` waits for

`runDone` has two closers.  The shutdown callback closes it after the host handler
and, on an emergency exit, after the broker was released and the context
cancelled; that order is the callback's own and needs no assumption
(`CallbackRelease`).  The other closer is the backstop of the stop that drove
`Shutdown`, and it closes the channel as soon as `Shutdown` is back, wherever the
callback stands.  So `llingr_run` returns last in every run whose backstops find
the callback `Finished` or the channel already closed, and not in `earlyBackstopRun`.

That the broker is released at most once, and never on a graceful exit, holds in
every run.
-/

namespace LlingrKafka.Lifecycle

open Bridge

variable {ι : Type*}

/-- The callback was delivered with a non-nil reason. -/
def History.emergency (hist : History ι) : Bool :=
  match hist.exit with
  | some (_, some _) => true
  | _ => false

/-- The callback has done all it does before it signals. -/
def Finished (g : Shared ι) : Prop :=
  g.hist.handlerReturned = true ∧
    (g.hist.emergency = true → g.hist.cleanupAttempted = true ∧ g.ctxCancelled = true)

instance (g : Shared ι) : Decidable (Finished g) := inferInstanceAs (Decidable (_ ∧ _))

/-- A stop's backstop closes the channel only when the callback is finished. -/
def BackstopWaits (_t : ι) (g : Shared ι) (l : Act) (_move : Move) : Prop :=
  l.stopFrame = some (.signal .close) → Finished g

instance (t : ι) (g : Shared ι) (l : Act) (move : Move) : Decidable (BackstopWaits t g l move) :=
  inferInstanceAs (Decidable (_ → _))

/-- What the release of the broker and of `llingr_run` keeps. -/
structure ReleaseInv (g : Shared ι) : Prop where
  undelivered : g.hist.exit = none → g.hist.handlerReturned = false ∧ g.hist.cleanupCalls = 0
  once : g.hist.cleanupCalls ≤ 1
  graceful : g.hist.emergency = false → g.hist.cleanupCalls = 0

/-- `llingr_run` may be let go only when the callback is finished. -/
def HeldBack (g : Shared ι) : Prop := g.state.runDoneOnce = .done → Finished g

/-- The callback's own order of events. -/
def CallbackRelease (g : Shared ι) : CallbackPc → Prop
  | .storeGate | .loadHandler | .inHandler _ => g.hist.cleanupCalls = 0
  | .cleanupLoad => g.hist.handlerReturned = true ∧ g.hist.cleanupCalls = 0 ∧
      g.hist.emergency = true
  | .inCleanup cancel => g.hist.handlerReturned = true ∧ g.hist.emergency = true ∧ cancel = true
  | .cleanupCancel cancel => g.hist.handlerReturned = true ∧ g.hist.cleanupAttempted = true ∧
      cancel = true
  | .signal _ => Finished g
  | .returned => True

/-- A thread's part in the release. -/
def ActRelease (t : ι) (g : Shared ι) : Act → Prop
  | .callback reason pc => g.hist.exit = some (t, reason) ∧ CallbackRelease g pc
  | _ => True

/-- A step that leaves the callback's events alone, and cancels no cancellation. -/
structure SameExit (g g' : Shared ι) : Prop where
  exit : g'.hist.exit = g.hist.exit
  handlerReturned : g'.hist.handlerReturned = g.hist.handlerReturned
  cleanupCalls : g'.hist.cleanupCalls = g.hist.cleanupCalls
  cleanupAttempted : g'.hist.cleanupAttempted = g.hist.cleanupAttempted
  ctxCancelled : g.ctxCancelled = true → g'.ctxCancelled = true

theorem SameExit.refl (g : Shared ι) : SameExit g g := ⟨rfl, rfl, rfl, rfl, id⟩

theorem SameExit.emergency {g g' : Shared ι} (h : SameExit g g') :
    g'.hist.emergency = g.hist.emergency := by
  unfold History.emergency
  rw [h.exit]

theorem SameExit.finished {g g' : Shared ι} (h : SameExit g g') (hfinished : Finished g) :
    Finished g' := by
  refine ⟨h.handlerReturned.trans hfinished.1, fun hemergency => ?_⟩
  rw [h.emergency] at hemergency
  obtain ⟨hattempted, hcancelled⟩ := hfinished.2 hemergency
  exact ⟨h.cleanupAttempted.trans hattempted, h.ctxCancelled hcancelled⟩

theorem SameExit.releaseInv {g g' : Shared ι} (h : SameExit g g') (hinv : ReleaseInv g) :
    ReleaseInv g' := by
  refine ⟨fun hnone => ?_, ?_, fun hgraceful => ?_⟩
  · rw [h.exit] at hnone
    rw [h.handlerReturned, h.cleanupCalls]
    exact hinv.undelivered hnone
  · rw [h.cleanupCalls]
    exact hinv.once
  · rw [h.emergency] at hgraceful
    rw [h.cleanupCalls]
    exact hinv.graceful hgraceful

theorem SameExit.callbackRelease {g g' : Shared ι} {pc : CallbackPc} (h : SameExit g g')
    (hown : CallbackRelease g pc) : CallbackRelease g' pc := by
  cases pc with
  | signal pc => exact h.finished hown
  | returned => trivial
  | _ => simpa [CallbackRelease, h.handlerReturned, h.cleanupCalls, h.cleanupAttempted,
      h.emergency] using hown

/-- `signalRunDone` finishes the once only by closing the channel. -/
theorem SignalStep.once {t : ι} {state state' : BridgeState ι} {pc pc' : SignalPc}
    (h : SignalStep t state pc state' pc') (hdone : state'.runDoneOnce = .done) :
    state.runDoneOnce = .done ∨ pc = .close := by
  cases h with
  | enter honce => cases hdone
  | close => exact .inr rfl
  | _ => exact .inl hdone

/-- A stop frame has no part in the callback's events, and lets `llingr_run` go only
by its backstop. -/
theorem StopStep.release {t : ι} {g g' : Shared ι} {pc pc' : StopPc} (h : StopStep t g pc g' pc') :
    SameExit g g' ∧ (g'.state.runDoneOnce = .done →
      g.state.runDoneOnce = .done ∨ pc = .signal .close) := by
  cases h with
  | cancel cancel => exact ⟨⟨rfl, rfl, rfl, rfl, fun hctx => by simp [hctx]⟩, .inl⟩
  | signal hsignal =>
      refine ⟨⟨rfl, rfl, rfl, rfl, id⟩, fun hdone => ?_⟩
      rcases hsignal.once hdone with hbefore | rfl
      · exact .inl hbefore
      · exact .inr rfl
  | _ => exact ⟨⟨rfl, rfl, rfl, rfl, id⟩, .inl⟩

/-- A step of a stop frame keeps `llingr_run` held back, if its backstop waits. -/
theorem StopStep.heldBack {t : ι} {g g' : Shared ι} {pc pc' : StopPc} (h : StopStep t g pc g' pc')
    (hheld : HeldBack g) (hwaits : pc = .signal .close → Finished g) : HeldBack g' := by
  intro hdone
  obtain ⟨hsame, honce⟩ := h.release
  apply hsame.finished
  rcases honce hdone with hbefore | hclose
  · exact hheld hbefore
  · exact hwaits hclose

theorem callbackRelease_afterHandler {g : Shared ι} {t : ι} {reason : Option String}
    (hexit : g.hist.exit = some (t, reason)) (hreturned : g.hist.handlerReturned = true)
    (hcalls : g.hist.cleanupCalls = 0) : CallbackRelease g (afterHandler reason) := by
  cases reason with
  | none =>
      refine ⟨hreturned, fun hemergency => ?_⟩
      simp [History.emergency, hexit] at hemergency
  | some text => exact ⟨hreturned, hcalls, by simp [History.emergency, hexit]⟩

/-- The callback's events, step by step. -/
theorem callback_release_step {t : ι} {g g' : Shared ι} {reason : Option String}
    {pc pc' : CallbackPc} (hdone : RunDoneInv g) (hinit : g.state.consumer.isSome = true)
    (hinv : ReleaseInv g) (hexit : g.hist.exit = some (t, reason)) (hown : CallbackRelease g pc)
    (h : CallbackStep t g reason pc g' pc') :
    ReleaseInv g' ∧ g'.hist.exit = some (t, reason) ∧ CallbackRelease g' pc' := by
  obtain ⟨hcancel, hcleanup, _⟩ := hdone.published hinit
  have hreturns : ReleaseInv { g with hist := { g.hist with handlerReturned := true } } := by
    refine { hinv with undelivered := fun hnone => ?_ }
    rw [show g.hist.exit = none from hnone] at hexit
    cases hexit
  cases h with
  | storeGate => exact ⟨{ hinv with }, hexit, hown⟩
  | callHandler hfn => exact ⟨hinv, hexit, hown⟩
  | noHandler hfn => exact ⟨hreturns, hexit, callbackRelease_afterHandler hexit rfl hown⟩
  | handlerStops => exact ⟨hinv, hexit, hown⟩
  | handlerReturns => exact ⟨hreturns, hexit, callbackRelease_afterHandler hexit rfl hown⟩
  | resume result => exact ⟨hinv, hexit, hown⟩
  | nested hstop =>
      have hsame := hstop.release.1
      refine ⟨hsame.releaseInv hinv, hsame.exit.trans hexit, ?_⟩
      exact hsame.cleanupCalls.trans hown
  | noCleanup hnone => simp [hnone] at hcleanup
  -- the release comes behind the handler's return, in an emergency only, and once
  | callCleanup hsome =>
      obtain ⟨hreturned, hcalls, hemergency⟩ := hown
      refine ⟨⟨fun hnone => ?_, ?_, fun hgraceful => ?_⟩, hexit, hreturned, hemergency, hcancel⟩
      · rw [show g.hist.exit = none from hnone] at hexit
        cases hexit
      · simp [hcalls]
      · rw [show g.hist.emergency = false from hgraceful] at hemergency
        cases hemergency
  | cleanupEnds cancel =>
      obtain ⟨hreturned, hemergency, hcancel⟩ := hown
      exact ⟨{ hinv with }, hexit, hreturned, rfl, hcancel⟩
  | cleanupCancel cancel =>
      obtain ⟨hreturned, hattempted, rfl⟩ := hown
      exact ⟨{ hinv with }, hexit, hreturned, fun _ => ⟨hattempted, by simp⟩⟩
  | signal hsignal => exact ⟨{ hinv with }, hexit, hown⟩
  | ret => exact ⟨{ hinv with }, hexit, trivial⟩

/-- A step of the callback keeps `llingr_run` held back, if a backstop it is inside
of waits. -/
theorem callback_heldBack {t : ι} {g g' : Shared ι} {reason : Option String}
    {pc pc' : CallbackPc} {move : Move} (hdone : RunDoneInv g)
    (hinit : g.state.consumer.isSome = true)
    (hown : CallbackRelease g pc) (hheld : HeldBack g)
    (hwaits : BackstopWaits t g (.callback reason pc) move)
    (h : CallbackStep t g reason pc g' pc') : HeldBack g' := by
  have hcancel := (hdone.published hinit).1
  cases h with
  | nested hstop => exact hstop.heldBack hheld (fun hpc => hwaits (by rw [hpc]; rfl))
  | signal hsignal => exact fun _ => hown
  | noHandler hfn => exact fun honce => ⟨rfl, (hheld honce).2⟩
  | handlerReturns => exact fun honce => ⟨rfl, (hheld honce).2⟩
  | cleanupEnds cancel => exact fun honce => ⟨(hheld honce).1, fun hemergency =>
      ⟨rfl, ((hheld honce).2 hemergency).2⟩⟩
  | cleanupCancel cancel =>
      obtain ⟨hreturned, hattempted, rfl⟩ := hown
      exact fun _ => ⟨hreturned, fun _ => ⟨hattempted, by simp⟩⟩
  | _ => exact hheld

/-- The step of a thread that is not the callback's. -/
theorem ActStep.release_of_not_callback {t : ι} {g g' : Shared ι} {l l' : Act} {move : Move}
    (h : ActStep t g l move g' l') (hcallback : ∀ reason pc, l' ≠ .callback reason pc) :
    SameExit g g' := by
  cases h with
  | run hrun => cases hrun <;> exact ⟨rfl, rfl, rfl, rfl, id⟩
  | stop hstop => exact hstop.release.1
  | enterCallback reason hinit hexit => exact absurd rfl (hcallback reason _)
  | callback h => exact absurd rfl (hcallback _ _)
  | _ => exact ⟨rfl, rfl, rfl, rfl, id⟩

/-- A move of a thread keeps the release invariant and the thread's own part. -/
theorem release_act_step {t : ι} {g g' : Shared ι} {l l' : Act} {move : Move}
    (hdone : RunDoneInv g) (hsignals : ActSignals t g l) (hinv : ReleaseInv g)
    (hown : ActRelease t g l) (h : ActStep t g l move g' l') :
    ReleaseInv g' ∧ ActRelease t g' l' := by
  cases h with
  | enterCallback reason hinit hexit =>
      obtain ⟨hreturned, hcalls⟩ := hinv.undelivered hexit
      refine ⟨⟨?_, hinv.once, fun _ => hcalls⟩, rfl, hcalls⟩
      intro hnone
      cases hnone
  | callback hcallback =>
      obtain ⟨hexit, hpc⟩ := hown
      exact callback_release_step hdone hsignals.1 hinv hexit hpc hcallback
  | run hrun =>
      refine ⟨?_, trivial⟩
      cases hrun <;> exact { hinv with }
  | stop hstop => exact ⟨hstop.release.1.releaseInv hinv, trivial⟩
  | _ => exact ⟨{ hinv with }, trivial⟩

/-- No other thread touches what the callback's thread knows. -/
theorem release_mono {t u : ι} {g g' : Shared ι} {l l' m : Act} {move : Move} (hu : u ≠ t)
    (hown : ActRelease t g l) (hother : ActRelease u g m) (h : ActStep t g l move g' l') :
    ActRelease u g' m := by
  cases m with
  | callback reason pc =>
      obtain ⟨hexit, hpc⟩ := hother
      have hsame : SameExit g g' := by
        refine h.release_of_not_callback ?_
        rintro reason' pc' rfl
        cases h with
        | enterCallback reason hinit hnone =>
            rw [hnone] at hexit
            cases hexit
        | callback hcallback =>
            have hmine := hown.1
            rw [hexit] at hmine
            cases hmine
            exact hu rfl
      exact ⟨hsame.exit.trans hexit, hsame.callbackRelease hpc⟩
  | _ => trivial

/-- A guarded move keeps `llingr_run` held back. -/
theorem heldBack_act_step {t : ι} {g g' : Shared ι} {l l' : Act} {move : Move}
    (hdone : RunDoneInv g) (hsignals : ActSignals t g l) (hinv : ReleaseInv g)
    (hown : ActRelease t g l) (hheld : HeldBack g) (hwaits : BackstopWaits t g l move)
    (h : ActStep t g l move g' l') : HeldBack g' := by
  cases h with
  | init hnone =>
      intro honce
      have hfresh := (hdone.unpublished hnone).2
      rw [show g.state.runDoneOnce = .done from honce] at hfresh
      cases hfresh
  | enterCallback reason hinit hexit =>
      intro honce
      have hreturned := (hinv.undelivered hexit).1
      rw [(hheld honce).1] at hreturned
      cases hreturned
  | run hrun => cases hrun <;> exact hheld
  | stop hstop => exact hstop.heldBack hheld (fun hpc => hwaits (by rw [hpc]; rfl))
  | callback hcallback =>
      exact callback_heldBack hdone hsignals.1 hown.2 hheld hwaits hcallback
  | _ => exact hheld

variable [DecidableEq ι] {shutdownFn : Bool} {labels : List (ι × Move)} {c : Cfg ι}

/-- Every backstop of the run waits for the callback. -/
def RunWithPatientBackstop (shutdownFn : Bool) (labels : List (ι × Move)) : Prop :=
  (machine ι shutdownFn).Guarded (Program.guardOn BackstopWaits) (machine ι shutdownFn).start labels

instance : Decidable (RunWithPatientBackstop shutdownFn labels) :=
  inferInstanceAs (Decidable (Machine.Guarded _ _ _ _))

omit [DecidableEq ι] in
theorem releaseInv_start (shutdownFn : Bool) : ReleaseInv (.start shutdownFn : Shared ι) := by
  constructor <;> simp [Shared.start, History.start]

/-- The broker is released as the callback says, in every run. -/
theorem release_holds (hreach : (machine ι shutdownFn).Reachable c) :
    Program.Holds ReleaseInv ActRelease c := by
  obtain ⟨labels, hrun⟩ := hreach
  have hstart : Program.Holds (fun g => RunDoneInv g ∧ ReleaseInv g)
      (fun t g l => ActSignals t g l ∧ ActRelease t g l) (machine ι shutdownFn).start :=
    ⟨⟨runDoneInv_start shutdownFn, releaseInv_start shutdownFn⟩, fun _ => ⟨trivial, trivial⟩⟩
  have hholds := Program.inv_of_own_and_others (G := fun _ _ _ _ => True) ?_ ?_ hstart
    (Machine.guarded_of_forall (fun _ _ => trivial) _ labels) hrun
  · exact ⟨hholds.1.2, fun t => (hholds.2 t).2⟩
  · rintro t g l move g' l' ⟨hdone, hinv⟩ ⟨hsignals, hown⟩ _ hstep
    have hact := advance_cases hstep
    obtain ⟨hdone', hsignals', _⟩ := act_step hdone hsignals hact
    obtain ⟨hinv', hown'⟩ := release_act_step hdone hsignals hinv hown hact
    exact ⟨⟨hdone', hinv'⟩, hsignals', hown'⟩
  · rintro t u g l m move g' l' hu ⟨hdone, hinv⟩ ⟨hsignals, hown⟩ ⟨hsignals', hother⟩ _ hstep
    have hact := advance_cases hstep
    obtain ⟨_, _, hle⟩ := act_step hdone hsignals hact
    exact ⟨hsignals'.mono hu hle, release_mono hu hown hother hact⟩

/-- `llingr_run` is held back in every run whose backstops wait. -/
theorem heldBack_of_exec (hwaits : RunWithPatientBackstop shutdownFn labels)
    (hrun : (machine ι shutdownFn).exec (machine ι shutdownFn).start labels = some c) :
    HeldBack c.shared := by
  have key : (machine ι shutdownFn).Reachable c ∧ HeldBack c.shared := by
    refine Machine.inv_of_guarded (I := fun c : Cfg ι =>
      (machine ι shutdownFn).Reachable c ∧ HeldBack c.shared) ?_
      ⟨Machine.reachable_start _, fun honce => by cases honce⟩ hwaits hrun
    rintro d ⟨t, move⟩ e ⟨hreach, hheld⟩ hguard hnext
    have hact := actStep_of_next hnext
    obtain ⟨hdone, hsignals⟩ := runDone_holds hreach
    obtain ⟨hinv, hown⟩ := release_holds hreach
    refine ⟨hreach.next hnext, ?_⟩
    exact heldBack_act_step hdone (hsignals t) hinv (hown t) hheld hguard hact
  exact key.2

/-- What the end of `llingr_run` tells the host, in a state where the callback was
invoked. -/
structure RunReturnsLast (g : Shared ι) : Prop where
  after_handler : g.hist.exit.isSome = true → g.hist.runReturned = true →
    g.hist.handlerReturned = true
  after_release : g.hist.emergency = true → g.hist.runReturned = true →
    g.hist.cleanupAttempted = true ∧ g.ctxCancelled = true
  cleanup_once : g.hist.cleanupCalls ≤ 1
  no_graceful_cleanup : g.hist.emergency = false → g.hist.cleanupCalls = 0

/-- **`llingr_run` returns last** in every run whose backstops find the callback
finished. -/
theorem runReturnsLast (hwaits : RunWithPatientBackstop shutdownFn labels)
    (hrun : (machine ι shutdownFn).exec (machine ι shutdownFn).start labels = some c) :
    RunReturnsLast c.shared := by
  have hdone := (runDone_holds (c := c) ⟨labels, hrun⟩).1
  have hinv := (release_holds (c := c) ⟨labels, hrun⟩).1
  have hheld := heldBack_of_exec hwaits hrun
  refine ⟨fun _ hreturned => ?_, fun hemergency hreturned => ?_, hinv.once, hinv.graceful⟩
  · exact (hheld (hdone.runReturned hreturned)).1
  · exact (hheld (hdone.runReturned hreturned)).2 hemergency

/-- An emergency exit overtakes a graceful stop; `Shutdown` comes back when the
callback has released the broker, and `llingr_run` returns. -/
def patientBackstopRun : List (ℕ × Move) :=
  [(0, .call .init), (1, .call .run), (1, .step), (1, .step), (1, .engine .returned),
    (2, .call .stop), (2, .step), (2, .step), (2, .step), (3, .callback (some "lost lease")),
    (3, .step), (3, .step), (3, .handlerReturns), (3, .step), (3, .engine .failed), (3, .step),
    (2, .engine .returned), (2, .step), (2, .step), (2, .step), (2, .step), (1, .step)]

theorem runReturnsLast_patientBackstop :
    ∃ c, (machine ℕ true).exec (machine ℕ true).start patientBackstopRun = some c ∧
      c.shared.hist.runReturned = true ∧ RunReturnsLast c.shared :=
  ⟨_, rfl, rfl,
    runReturnsLast (show RunWithPatientBackstop true patientBackstopRun by decide) rfl⟩

/-- The same race with a `Shutdown` that comes back while the handler runs. -/
def earlyBackstopRun : List (ℕ × Move) :=
  [(0, .call .init), (1, .call .run), (1, .step), (1, .step), (1, .engine .returned),
    (2, .call .stop), (2, .step), (2, .step), (2, .step), (3, .callback (some "lost lease")),
    (3, .step), (3, .step), (2, .engine .failed), (2, .step), (2, .step), (2, .step), (2, .step),
    (1, .step)]

theorem not_runReturnsLast :
    ∃ c, (machine ℕ true).exec (machine ℕ true).start earlyBackstopRun = some c ∧
      ¬ RunReturnsLast c.shared := by
  refine ⟨_, rfl, fun h => ?_⟩
  have hreturned := h.after_handler rfl rfl
  cases hreturned

end LlingrKafka.Lifecycle
