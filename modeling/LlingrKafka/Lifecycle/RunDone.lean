import LlingrKafka.Lifecycle.Steps

/-!
# The channel that parks `llingr_run`

`runDone` has two closers, the shutdown callback and the stop that drove
`Shutdown`, and both go through `runDoneOnce`.  The invariant of this file holds
in every run whatsoever:

* a goroutine inside the once is the one the once is running in, so the channel
  is closed exactly when the once is done, and once;
* a caller of `signalRunDone` returns only when the once is done, because
  `sync.Once` makes it wait for the goroutine that is running the function.
-/

namespace LlingrKafka.Lifecycle

open Bridge

variable {ι : Type*}

/-- The record and its channel are published together, and the channel has been
closed once if the once is done and not at all otherwise. -/
structure RunDoneInv (g : Shared ι) : Prop where
  published : g.state.consumer.isSome → g.state.cancel.isSome ∧ g.state.brokerCleanup.isSome ∧
    g.state.runDone.isSome
  unpublished : g.state.consumer = none → g.state.runDone = none ∧ g.state.runDoneOnce = .fresh
  closes : ∀ done, g.state.runDone = some done → done.closes = g.state.runDoneOnce.fired
  stopReturned : g.hist.stopReturned = true → g.state.runDoneOnce = .done
  callbackReturned : g.hist.callbackReturned = true → g.state.runDoneOnce = .done
  runReturned : g.hist.runReturned = true → g.state.runDoneOnce = .done

/-- A goroutine inside `signalRunDone`. -/
def SignalOwn (t : ι) (g : Shared ι) : SignalPc → Prop
  | .load | .enter => g.state.consumer.isSome = true
  | .close => g.state.runDoneOnce = .running t
  | .done => g.state.runDoneOnce = .done

/-- A stop frame. -/
def StopSignals (t : ι) (g : Shared ι) : StopPc → Prop
  | .cas _ | .shutdown _ | .inShutdown _ | .cancel _ => g.state.consumer.isSome = true
  | .signal pc => SignalOwn t g pc
  | .returned .won => g.hist.stopReturned = true
  | .load | .returned _ => True

/-- The callback. -/
def CallbackSignals (t : ι) (g : Shared ι) : CallbackPc → Prop
  | .inHandler (some pc) => StopSignals t g pc
  | .signal pc => SignalOwn t g pc
  | .returned => g.hist.callbackReturned = true
  | _ => True

/-- A thread's part in closing `runDone`. -/
def ActSignals (t : ι) (g : Shared ι) : Act → Prop
  | .stop pc => StopSignals t g pc
  | .callback _ pc => g.state.consumer.isSome = true ∧ CallbackSignals t g pc
  | _ => True

theorem runDoneInv_start (shutdownFn : Bool) : RunDoneInv (.start shutdownFn : Shared ι) := by
  constructor <;> simp [Shared.start, History.start, BridgeState.zero]

/-- What other threads rely on: publication is for good, the once finishes only
in the goroutine it runs in, and never starts again. -/
structure OnceLe (t : ι) (g g' : Shared ι) : Prop where
  consumer : g.state.consumer.isSome = true → g'.state.consumer.isSome = true
  running : ∀ u, u ≠ t → g.state.runDoneOnce = .running u → g'.state.runDoneOnce = .running u
  done : g.state.runDoneOnce = .done → g'.state.runDoneOnce = .done
  stopReturned : g.hist.stopReturned = true → g'.hist.stopReturned = true
  callbackReturned : g.hist.callbackReturned = true → g'.hist.callbackReturned = true

theorem OnceLe.of_state_eq {t : ι} {g g' : Shared ι}
    (hconsumer : g'.state.consumer = g.state.consumer)
    (honce : g'.state.runDoneOnce = g.state.runDoneOnce)
    (hstop : g.hist.stopReturned = true → g'.hist.stopReturned = true)
    (hcallback : g.hist.callbackReturned = true → g'.hist.callbackReturned = true) :
    OnceLe t g g' where
  consumer := by rw [hconsumer]; exact id
  running := by intro u _ hrunning; rw [honce, hrunning]
  done := by intro hdone; rw [honce, hdone]
  stopReturned := hstop
  callbackReturned := hcallback

/-- A step of `signalRunDone` keeps the invariant and its own assertion. -/
theorem signal_step {t : ι} {g : Shared ι} {pc pc' : SignalPc} {state' : BridgeState ι}
    (hinv : RunDoneInv g) (hown : SignalOwn t g pc) (h : SignalStep t g.state pc state' pc') :
    RunDoneInv { g with state := state' } ∧ SignalOwn t { g with state := state' } pc' ∧
      OnceLe t g { g with state := state' } := by
  cases h with
  -- a published bridge has its channel, so the early return is not taken
  | loadNil hdone =>
      have := (hinv.published hown).2.2
      simp [hdone] at this
  | load done hdone => exact ⟨hinv, hown, .of_state_eq rfl rfl id id⟩
  | enter honce =>
      refine ⟨⟨hinv.published, ?_, ?_, ?_, ?_, ?_⟩, rfl, ⟨id, ?_, ?_, id, id⟩⟩
      · intro hnone
        rw [SignalOwn, hnone] at hown
        simp at hown
      · intro done hdone
        simpa [honce, Once.fired] using hinv.closes done hdone
      · intro hret
        simpa [honce] using hinv.stopReturned hret
      · intro hret
        simpa [honce] using hinv.callbackReturned hret
      · intro hret
        simpa [honce] using hinv.runReturned hret
      · intro u _ hrunning
        simp [honce] at hrunning
      · intro hdone
        simp [honce] at hdone
  | entered honce => exact ⟨hinv, honce, .of_state_eq rfl rfl id id⟩
  -- the only close: the once was running in this thread, and is done from here on
  | close =>
      simp only [SignalOwn] at hown
      refine ⟨⟨?_, ?_, ?_, fun _ => rfl, fun _ => rfl, fun _ => rfl⟩, rfl,
        ⟨id, ?_, fun _ => rfl, id, id⟩⟩
      · intro hsome
        obtain ⟨hcancel, hcleanup, hdone⟩ := hinv.published hsome
        exact ⟨hcancel, hcleanup, by simpa using hdone⟩
      · intro hnone
        have := (hinv.unpublished hnone).2
        simp [hown] at this
      · intro done hdone
        obtain ⟨before, hbefore, rfl⟩ := Option.map_eq_some_iff.mp hdone
        simp [hinv.closes before hbefore, hown, Once.fired]
      · intro u hu hrunning
        rw [hown] at hrunning
        cases hrunning
        exact absurd rfl hu

/-- A step of a stop frame keeps the invariant and its own assertion. -/
theorem stop_step {t : ι} {g g' : Shared ι} {pc pc' : StopPc} (hinv : RunDoneInv g)
    (hown : StopSignals t g pc) (h : StopStep t g pc g' pc') :
    RunDoneInv g' ∧ StopSignals t g' pc' ∧ OnceLe t g g' := by
  cases h with
  | loadNil hconsumer => exact ⟨hinv, trivial, .of_state_eq rfl rfl id id⟩
  | load hconsumer => exact ⟨hinv, hconsumer, .of_state_eq rfl rfl id id⟩
  | win cancel hgate =>
      exact ⟨{ hinv with }, hown, .of_state_eq rfl rfl id id⟩
  | lose cancel hgate => exact ⟨hinv, trivial, .of_state_eq rfl rfl id id⟩
  | callShutdown cancel =>
      exact ⟨{ hinv with }, hown, .of_state_eq rfl rfl id id⟩
  | shutdownEnds cancel =>
      exact ⟨{ hinv with }, hown, .of_state_eq rfl rfl id id⟩
  | cancel cancel =>
      exact ⟨{ hinv with }, hown, .of_state_eq rfl rfl id id⟩
  | signal hsignal => exact signal_step hinv hown hsignal
  | ret =>
      exact ⟨{ hinv with stopReturned := fun _ => hown }, rfl,
        .of_state_eq rfl rfl (fun _ => rfl) id⟩

theorem callbackSignals_afterHandler {t : ι} {g : Shared ι} {reason : Option String}
    (hinit : g.state.consumer.isSome = true) : CallbackSignals t g (afterHandler reason) := by
  unfold afterHandler
  split
  · trivial
  · exact hinit

/-- A step of the callback keeps the invariant and its own assertion. -/
theorem callback_step {t : ι} {g g' : Shared ι} {reason : Option String} {pc pc' : CallbackPc}
    (hinv : RunDoneInv g) (hinit : g.state.consumer.isSome = true)
    (hown : CallbackSignals t g pc) (h : CallbackStep t g reason pc g' pc') :
    RunDoneInv g' ∧ CallbackSignals t g' pc' ∧ OnceLe t g g' := by
  cases h with
  | storeGate => exact ⟨{ hinv with }, trivial, .of_state_eq rfl rfl id id⟩
  | callHandler hfn => exact ⟨hinv, trivial, .of_state_eq rfl rfl id id⟩
  | noHandler hfn =>
      exact ⟨{ hinv with }, callbackSignals_afterHandler hinit, .of_state_eq rfl rfl id id⟩
  | handlerStops => exact ⟨hinv, trivial, .of_state_eq rfl rfl id id⟩
  | handlerReturns =>
      exact ⟨{ hinv with }, callbackSignals_afterHandler hinit, .of_state_eq rfl rfl id id⟩
  | resume result => exact ⟨hinv, trivial, .of_state_eq rfl rfl id id⟩
  | nested hstop => exact stop_step hinv hown hstop
  | noCleanup hcleanup => exact ⟨hinv, trivial, .of_state_eq rfl rfl id id⟩
  | callCleanup hcleanup => exact ⟨{ hinv with }, trivial, .of_state_eq rfl rfl id id⟩
  | cleanupEnds cancel => exact ⟨{ hinv with }, trivial, .of_state_eq rfl rfl id id⟩
  | cleanupCancel cancel => exact ⟨{ hinv with }, hinit, .of_state_eq rfl rfl id id⟩
  | signal hsignal => exact signal_step hinv hown hsignal
  | ret => 
      exact ⟨{ hinv with callbackReturned := fun _ => hown }, rfl,
        .of_state_eq rfl rfl id fun _ => rfl⟩

/-- The once is done when the channel is seen closed. -/
theorem RunDoneInv.done_of_closed {g : Shared ι} (hinv : RunDoneInv g)
    (hclosed : g.state.RunDoneClosed) : g.state.runDoneOnce = .done := by
  obtain ⟨done, hdone, hpos⟩ := hclosed
  rw [hinv.closes done hdone] at hpos
  cases honce : g.state.runDoneOnce with
  | fresh => simp [honce, Once.fired] at hpos
  | running u => simp [honce, Once.fired] at hpos
  | done => rfl

/-- The channel is closed when the once is done. -/
theorem RunDoneInv.closed_of_done {g : Shared ι} (hinv : RunDoneInv g)
    (honce : g.state.runDoneOnce = .done) : g.state.RunDoneClosed := by
  cases hconsumer : g.state.consumer with
  | none =>
      have hfresh := (hinv.unpublished hconsumer).2
      rw [honce] at hfresh
      cases hfresh
  | some call =>
      have hsome := (hinv.published (by simp [hconsumer])).2.2
      obtain ⟨done, hdone⟩ := Option.isSome_iff_exists.mp hsome
      exact ⟨done, hdone, by simp [hinv.closes done hdone, honce, Once.fired]⟩

/-- A move of a thread keeps the invariant and its own assertion. -/
theorem act_step {t : ι} {g g' : Shared ι} {l l' : Act} {move : Move} (hinv : RunDoneInv g)
    (hown : ActSignals t g l) (h : ActStep t g l move g' l') :
    RunDoneInv g' ∧ ActSignals t g' l' ∧ OnceLe t g g' := by
  cases h with
  -- the channel `llingr_init` makes is open, and the once has not fired
  | init hnone =>
      have hfresh := (hinv.unpublished hnone).2
      refine ⟨⟨fun _ => ⟨rfl, rfl, rfl⟩, ?_, ?_, hinv.stopReturned, hinv.callbackReturned,
        hinv.runReturned⟩, trivial, ⟨fun _ => rfl, fun u _ => id, id, id, id⟩⟩
      · intro hconsumer
        simp [BridgeState.publish] at hconsumer
      · intro done hdone
        simp only [BridgeState.publish, Option.some.injEq] at hdone ⊢
        rw [← hdone, hfresh]
        rfl
  | enterRun => exact ⟨{ hinv with }, trivial, .of_state_eq rfl rfl id id⟩
  | enterStop => exact ⟨hinv, trivial, .of_state_eq rfl rfl id id⟩
  | enterEmergency => exact ⟨hinv, trivial, .of_state_eq rfl rfl id id⟩
  | enterCallback reason hinit hexit =>
      exact ⟨{ hinv with }, ⟨hinit, trivial⟩, .of_state_eq rfl rfl id id⟩
  | run hrun =>
      cases hrun with
      | openGate => exact ⟨{ hinv with }, trivial, .of_state_eq rfl rfl id id⟩
      | unpark hclosed =>
          exact ⟨{ hinv with runReturned := fun _ => hinv.done_of_closed hclosed }, trivial,
            .of_state_eq rfl rfl id id⟩
      | _ => exact ⟨hinv, trivial, .of_state_eq rfl rfl id id⟩
  | stop hstop => exact stop_step hinv hown hstop
  | emergency pc pc' move => exact ⟨hinv, trivial, .of_state_eq rfl rfl id id⟩
  | callback hcallback =>
      obtain ⟨hinit, hsignals⟩ := hown
      obtain ⟨hinv', hsignals', hle⟩ := callback_step hinv hinit hsignals hcallback
      exact ⟨hinv', ⟨hle.consumer hinit, hsignals'⟩, hle⟩

/-! ## No thread disturbs another -/

theorem SignalOwn.mono {t u : ι} {g g' : Shared ι} {pc : SignalPc} (hu : u ≠ t)
    (hle : OnceLe t g g') (h : SignalOwn u g pc) : SignalOwn u g' pc := by
  cases pc with
  | load => exact hle.consumer h
  | enter => exact hle.consumer h
  | close => exact hle.running u hu h
  | done => exact hle.done h

theorem StopSignals.mono {t u : ι} {g g' : Shared ι} {pc : StopPc} (hu : u ≠ t)
    (hle : OnceLe t g g') (h : StopSignals u g pc) : StopSignals u g' pc := by
  cases pc with
  | load => trivial
  | cas cancel => exact hle.consumer h
  | shutdown cancel => exact hle.consumer h
  | inShutdown cancel => exact hle.consumer h
  | cancel cancel => exact hle.consumer h
  | signal pc => exact SignalOwn.mono hu hle h
  | returned result =>
      cases result with
      | won => exact hle.stopReturned h
      | _ => trivial

theorem ActSignals.mono {t u : ι} {g g' : Shared ι} {l : Act} (hu : u ≠ t)
    (hle : OnceLe t g g') (h : ActSignals u g l) : ActSignals u g' l := by
  cases l with
  | stop pc => exact StopSignals.mono hu hle h
  | callback reason pc =>
      refine ⟨hle.consumer h.1, ?_⟩
      have hsignals := h.2
      cases pc with
      | inHandler nested =>
          cases nested with
          | none => trivial
          | some pc => exact StopSignals.mono hu hle hsignals
      | signal pc => exact SignalOwn.mono hu hle hsignals
      | returned => exact hle.callbackReturned hsignals
      | _ => trivial
  | _ => trivial

variable [DecidableEq ι]

/-- **`runDone` is closed at most once, and its closers leave it closed**, in
every run of the bridge. -/
theorem runDone_holds {shutdownFn : Bool} {c : Config ι (Shared ι) Act}
    (hreach : (program ι shutdownFn).machine.Reachable c) :
    Program.Holds RunDoneInv ActSignals c := by
  obtain ⟨labels, hrun⟩ := hreach
  have hstart : Program.Holds RunDoneInv ActSignals (program ι shutdownFn).machine.start :=
    ⟨runDoneInv_start shutdownFn, fun _ => trivial⟩
  refine Program.inv_of_own_and_others (G := fun _ _ _ _ => True) ?_ ?_ hstart
    (Machine.guarded_of_forall (fun _ _ => trivial) _ labels) hrun
  · intro t g l move g' l' hinv hown _ hstep
    obtain ⟨hinv', hown', _⟩ := act_step hinv hown (advance_cases hstep)
    exact ⟨hinv', hown'⟩
  · intro t u g l m move g' l' hu hinv hown hother _ hstep
    obtain ⟨_, _, hle⟩ := act_step hinv hown (advance_cases hstep)
    exact hother.mono hu hle

end LlingrKafka.Lifecycle
