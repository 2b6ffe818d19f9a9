import LlingrKafka.Lifecycle.Model
import Mathlib.Order.Nat
import Mathlib.Tactic.Common

/-!
# What a step can do

The step functions of `Model.lean` are read back here once, as relations with one
constructor for each thing a step can do.  Every invariant of this directory is
proved by cases on them, so a change to one export touches one relation, its
inversion lemma and the cases that mention it.
-/

namespace LlingrKafka.Lifecycle

open Bridge

variable {ι : Type*}

/-- The steps of `signalRunDone`. -/
inductive SignalStep (t : ι) (state : BridgeState ι) : SignalPc → BridgeState ι → SignalPc → Prop
  | loadNil (h : state.runDone = none) : SignalStep t state .load state .done
  | load (done : Chan) (h : state.runDone = some done) : SignalStep t state .load state .enter
  | enter (h : state.runDoneOnce = .fresh) :
      SignalStep t state .enter { state with runDoneOnce := .running t } .close
  | entered (h : state.runDoneOnce = .done) : SignalStep t state .enter state .done
  | close : SignalStep t state .close { state with
      runDoneOnce := .done
      runDone := state.runDone.map fun done => ⟨done.closes + 1⟩ } .done

theorem signalRunDone_cases {t : ι} {state state' : BridgeState ι} {pc pc' : SignalPc}
    (h : signalRunDone t state pc = some (state', pc')) : SignalStep t state pc state' pc' := by
  cases pc with
  | load =>
      cases hdone : state.runDone with
      | none =>
          simp only [signalRunDone, hdone, Option.some.injEq, Prod.mk.injEq] at h
          obtain ⟨rfl, rfl⟩ := h
          exact .loadNil hdone
      | some done =>
          simp only [signalRunDone, hdone, Option.some.injEq, Prod.mk.injEq] at h
          obtain ⟨rfl, rfl⟩ := h
          exact .load done hdone
  | enter =>
      cases honce : state.runDoneOnce with
      | fresh =>
          simp only [signalRunDone, honce, Option.some.injEq, Prod.mk.injEq] at h
          obtain ⟨rfl, rfl⟩ := h
          exact .enter honce
      | running u => simp [signalRunDone, honce] at h
      | done =>
          simp only [signalRunDone, honce, Option.some.injEq, Prod.mk.injEq] at h
          obtain ⟨rfl, rfl⟩ := h
          exact .entered honce
  | close =>
      simp only [signalRunDone, Option.some.injEq, Prod.mk.injEq] at h
      obtain ⟨rfl, rfl⟩ := h
      exact .close
  | done => simp [signalRunDone] at h

/-- The steps of `llingr_stop`. -/
inductive StopStep (t : ι) (g : Shared ι) : StopPc → Shared ι → StopPc → Prop
  | loadNil (h : g.state.consumer = none) : StopStep t g .load g (.returned .noConsumer)
  | load (h : g.state.consumer.isSome = true) : StopStep t g .load g (.cas g.state.cancel.isSome)
  | win (cancel : Bool) (h : g.state.stopGateOpen = true) :
      StopStep t g (.cas cancel) { g with
        state := { g.state with stopGateOpen := false }
        hist := { g.hist with winner := some t } } (.shutdown cancel)
  | lose (cancel : Bool) (h : g.state.stopGateOpen = false) :
      StopStep t g (.cas cancel) g (.returned .lost)
  | callShutdown (cancel : Bool) :
      StopStep t g (.shutdown cancel)
        { g with hist := { g.hist with shutdownCalls := g.hist.shutdownCalls + 1 } }
        (.inShutdown cancel)
  | shutdownEnds (cancel : Bool) :
      StopStep t g (.inShutdown cancel)
        { g with hist := { g.hist with shutdownFinished := true } } (.cancel cancel)
  | cancel (cancel : Bool) :
      StopStep t g (.cancel cancel) { g with ctxCancelled := g.ctxCancelled || cancel }
        (.signal .load)
  | signal {pc pc' : SignalPc} {state' : BridgeState ι} (h : SignalStep t g.state pc state' pc') :
      StopStep t g (.signal pc) { g with state := state' } (.signal pc')
  | ret : StopStep t g (.signal .done) { g with hist := { g.hist with stopReturned := true } }
      (.returned .won)

/-- The compare-and-swap: at an open gate the frame wins, at a closed one it
changes nothing and returns. -/
theorem StopStep.of_cas {t : ι} {g g' : Shared ι} {cancel : Bool} {pc' : StopPc}
    (h : StopStep t g (.cas cancel) g' pc') :
    (g.state.stopGateOpen = true ∧ g'.hist.winner = some t ∧ pc' = .shutdown cancel) ∨
      (g.state.stopGateOpen = false ∧ g' = g ∧ pc' = .returned .lost) := by
  cases h with
  | win cancel hgate => exact .inl ⟨hgate, rfl, rfl⟩
  | lose cancel hgate => exact .inr ⟨hgate, rfl, rfl⟩

theorem StopStep.of_shutdown {t : ι} {g g' : Shared ι} {cancel : Bool} {pc' : StopPc}
    (h : StopStep t g (.shutdown cancel) g' pc') :
    g'.hist.shutdownCalls = g.hist.shutdownCalls + 1 := by
  cases h
  rfl

/-- A frame that has not won changes nothing, unless it stands before its
compare-and-swap at an open gate. -/
theorem StopStep.of_not_won {t : ι} {g g' : Shared ι} {pc pc' : StopPc}
    (h : StopStep t g pc g' pc') (hpc : ¬ pc.Won) :
    (g' = g ∧ ¬ pc'.Won) ∨ g.state.stopGateOpen = true ∧ ∃ cancel, pc = .cas cancel := by
  cases h with
  | loadNil hconsumer => exact .inl ⟨rfl, id⟩
  | load hconsumer => exact .inl ⟨rfl, id⟩
  | win cancel hgate => exact .inr ⟨hgate, cancel, rfl⟩
  | lose cancel hgate => exact .inl ⟨rfl, id⟩
  | _ => exact absurd trivial hpc

/-- Inversion of a step of `signalRunDone` inside one of its callers. -/
private theorem signal_map_cases {t : ι} {g g' : Shared ι} {pc : SignalPc} {β : Type*} {b : β}
    {wrap : SignalPc → β}
    (h : ((signalRunDone t g.state pc).map fun r => ({ g with state := r.1 }, wrap r.2)) =
      some (g', b)) :
    ∃ state' pc', SignalStep t g.state pc state' pc' ∧ g' = { g with state := state' } ∧
      b = wrap pc' := by
  simp only [Option.map_eq_some_iff, Prod.mk.injEq] at h
  obtain ⟨⟨state', pc'⟩, hsignal, rfl, rfl⟩ := h
  exact ⟨state', pc', signalRunDone_cases hsignal, rfl, rfl⟩

theorem llingrStop_cases {t : ι} {g g' : Shared ι} {pc pc' : StopPc} {move : Move}
    (h : llingrStop t g pc move = some (g', pc')) : StopStep t g pc g' pc' := by
  unfold llingrStop at h
  split at h
  · split at h <;> simp only [Option.some.injEq, Prod.mk.injEq] at h <;> obtain ⟨rfl, rfl⟩ := h
    · exact .loadNil ‹_›
    · exact .load (by simp [*])
  · split at h <;> simp only [Option.some.injEq, Prod.mk.injEq] at h <;> obtain ⟨rfl, rfl⟩ := h
    · exact .win _ ‹_›
    · exact .lose _ (Bool.eq_false_iff.mpr ‹_›)
  · simp only [Option.some.injEq, Prod.mk.injEq] at h
    obtain ⟨rfl, rfl⟩ := h
    exact .callShutdown _
  · simp only [Option.some.injEq, Prod.mk.injEq] at h
    obtain ⟨rfl, rfl⟩ := h
    exact .shutdownEnds _
  · simp only [Option.some.injEq, Prod.mk.injEq] at h
    obtain ⟨rfl, rfl⟩ := h
    exact .cancel _
  · simp only [Option.some.injEq, Prod.mk.injEq] at h
    obtain ⟨rfl, rfl⟩ := h
    exact .ret
  · obtain ⟨state', pc', hsignal, rfl, rfl⟩ := signal_map_cases h
    exact .signal hsignal
  · simp at h

/-- The steps of `llingr_run`. -/
inductive RunStep (g : Shared ι) : RunPc → Shared ι → RunPc → Prop
  | loadNil (h : g.state.consumer = none) : RunStep g .load g (.returned (-1))
  | load (h : g.state.consumer.isSome = true) : RunStep g .load g .openGate
  | openGate : RunStep g .openGate { g with
      state := { g.state with stopGateOpen := true }
      hist := { g.hist with gateOpened := true } } .inSubscribe
  | subscribed : RunStep g .inSubscribe g .park
  | subscribeFailed : RunStep g .inSubscribe g (.returned (-2))
  | subscribePanicked : RunStep g .inSubscribe g (.returned (-3))
  | unpark (h : g.state.RunDoneClosed) :
      RunStep g .park { g with hist := { g.hist with runReturned := true } } (.returned 0)

theorem llingrRun_cases {g g' : Shared ι} {pc pc' : RunPc} {move : Move}
    (h : llingrRun g pc move = some (g', pc')) : RunStep g pc g' pc' := by
  unfold llingrRun at h
  split at h
  · split at h <;> simp only [Option.some.injEq, Prod.mk.injEq] at h <;> obtain ⟨rfl, rfl⟩ := h
    · exact .loadNil ‹_›
    · exact .load (by simp [*])
  · simp only [Option.some.injEq, Prod.mk.injEq] at h
    obtain ⟨rfl, rfl⟩ := h
    exact .openGate
  · simp only [Option.some.injEq, Prod.mk.injEq] at h
    obtain ⟨rfl, rfl⟩ := h
    exact .subscribed
  · simp only [Option.some.injEq, Prod.mk.injEq] at h
    obtain ⟨rfl, rfl⟩ := h
    exact .subscribeFailed
  · simp only [Option.some.injEq, Prod.mk.injEq] at h
    obtain ⟨rfl, rfl⟩ := h
    exact .subscribePanicked
  · split at h
    · rename_i hdone
      split at h
      · simp only [Option.some.injEq, Prod.mk.injEq] at h
        obtain ⟨rfl, rfl⟩ := h
        exact .unpark ⟨_, hdone, ‹_›⟩
      · simp at h
    · simp at h
  · simp at h

/-- The steps of the shutdown callback. -/
inductive CallbackStep (t : ι) (g : Shared ι) (reason : Option String) :
    CallbackPc → Shared ι → CallbackPc → Prop
  | storeGate : CallbackStep t g reason .storeGate { g with
      state := { g.state with stopGateOpen := false }
      hist := { g.hist with exitDelivered := true } } .loadHandler
  | callHandler (h : g.shutdownFn = true) : CallbackStep t g reason .loadHandler g (.inHandler none)
  | noHandler (h : g.shutdownFn = false) :
      CallbackStep t g reason .loadHandler
        { g with hist := { g.hist with handlerReturned := true } } (afterHandler reason)
  | handlerStops : CallbackStep t g reason (.inHandler none) g (.inHandler (some .load))
  | handlerReturns :
      CallbackStep t g reason (.inHandler none)
        { g with hist := { g.hist with handlerReturned := true } } (afterHandler reason)
  | resume (result : StopResult) :
      CallbackStep t g reason (.inHandler (some (.returned result))) g (.inHandler none)
  | nested {pc pc' : StopPc} {g' : Shared ι} (h : StopStep t g pc g' pc') :
      CallbackStep t g reason (.inHandler (some pc)) g' (.inHandler (some pc'))
  | noCleanup (h : g.state.brokerCleanup = none) :
      CallbackStep t g reason .cleanupLoad g (.cleanupCancel g.state.cancel.isSome)
  | callCleanup (h : g.state.brokerCleanup.isSome = true) :
      CallbackStep t g reason .cleanupLoad
        { g with hist := { g.hist with cleanupCalls := g.hist.cleanupCalls + 1 } }
        (.inCleanup g.state.cancel.isSome)
  | cleanupEnds (cancel : Bool) :
      CallbackStep t g reason (.inCleanup cancel)
        { g with hist := { g.hist with cleanupAttempted := true } } (.cleanupCancel cancel)
  | cleanupCancel (cancel : Bool) :
      CallbackStep t g reason (.cleanupCancel cancel)
        { g with ctxCancelled := g.ctxCancelled || cancel } (.signal .load)
  | signal {pc pc' : SignalPc} {state' : BridgeState ι} (h : SignalStep t g.state pc state' pc') :
      CallbackStep t g reason (.signal pc) { g with state := state' } (.signal pc')
  | ret : CallbackStep t g reason (.signal .done)
      { g with hist := { g.hist with callbackReturned := true } } .returned

theorem shutdownCallback_cases {t : ι} {g g' : Shared ι} {reason : Option String}
    {pc pc' : CallbackPc} {move : Move} (h : shutdownCallback t g reason pc move = some (g', pc')) :
    CallbackStep t g reason pc g' pc' := by
  unfold shutdownCallback at h
  split at h
  · simp only [Option.some.injEq, Prod.mk.injEq] at h
    obtain ⟨rfl, rfl⟩ := h
    exact .storeGate
  · split at h <;> simp only [Option.some.injEq, Prod.mk.injEq] at h <;> obtain ⟨rfl, rfl⟩ := h
    · exact .callHandler ‹_›
    · exact .noHandler (Bool.eq_false_iff.mpr ‹_›)
  · simp only [Option.some.injEq, Prod.mk.injEq] at h
    obtain ⟨rfl, rfl⟩ := h
    exact .handlerStops
  · simp only [Option.some.injEq, Prod.mk.injEq] at h
    obtain ⟨rfl, rfl⟩ := h
    exact .handlerReturns
  · simp only [Option.some.injEq, Prod.mk.injEq] at h
    obtain ⟨rfl, rfl⟩ := h
    exact .resume _
  · simp only [Option.map_eq_some_iff, Prod.mk.injEq] at h
    obtain ⟨⟨g', pc'⟩, hstop, rfl, rfl⟩ := h
    exact .nested (llingrStop_cases hstop)
  · split at h <;> simp only [Option.some.injEq, Prod.mk.injEq] at h <;> obtain ⟨rfl, rfl⟩ := h
    · exact .noCleanup ‹_›
    · exact .callCleanup (by simp [*])
  · simp only [Option.some.injEq, Prod.mk.injEq] at h
    obtain ⟨rfl, rfl⟩ := h
    exact .cleanupEnds _
  · simp only [Option.some.injEq, Prod.mk.injEq] at h
    obtain ⟨rfl, rfl⟩ := h
    exact .cleanupCancel _
  · simp only [Option.some.injEq, Prod.mk.injEq] at h
    obtain ⟨rfl, rfl⟩ := h
    exact .ret
  · obtain ⟨state', pc', hsignal, rfl, rfl⟩ := signal_map_cases h
    exact .signal hsignal
  · simp at h

/-- The moves of a thread. -/
inductive ActStep (t : ι) (g : Shared ι) : Act → Move → Shared ι → Act → Prop
  | init (h : g.state.consumer = none) :
      ActStep t g .idle (.call .init) { g with state := g.state.publish t } .init
  | enterRun : ActStep t g .idle (.call .run)
      { g with hist := { g.hist with runCalled := some t } } (.run .load)
  | enterStop : ActStep t g .idle (.call .stop) g (.stop .load)
  | enterEmergency : ActStep t g .idle (.call .emergencyStop) g (.emergency .load)
  | enterCallback (reason : Option String) (hinit : g.state.consumer.isSome = true)
      (hexit : g.hist.exit = none) :
      ActStep t g .idle (.callback reason)
        { g with hist := { g.hist with exit := some (t, reason) } } (.callback reason .storeGate)
  | run {pc pc' : RunPc} {move : Move} {g' : Shared ι} (h : RunStep g pc g' pc') :
      ActStep t g (.run pc) move g' (.run pc')
  | stop {pc pc' : StopPc} {move : Move} {g' : Shared ι} (h : StopStep t g pc g' pc') :
      ActStep t g (.stop pc) move g' (.stop pc')
  | emergency (pc pc' : EmergencyPc) (move : Move) :
      ActStep t g (.emergency pc) move g (.emergency pc')
  | callback {reason : Option String} {pc pc' : CallbackPc} {move : Move} {g' : Shared ι}
      (h : CallbackStep t g reason pc g' pc') :
      ActStep t g (.callback reason pc) move g' (.callback reason pc')

/-- `llingr_emergency_stop` itself leaves the bridge as it is. -/
theorem emergencyStop_shared {g g' : Shared ι} {pc pc' : EmergencyPc} {move : Move}
    (h : emergencyStop g pc move = some (g', pc')) : g' = g := by
  unfold emergencyStop at h
  split at h
  · split at h <;> simp only [Option.some.injEq, Prod.mk.injEq] at h <;> exact h.1.symm
  · simp only [Option.some.injEq, Prod.mk.injEq] at h
    exact h.1.symm
  · simp at h

theorem enter_cases {t : ι} {g g' : Shared ι} {l' : Act} {move : Move}
    (h : enter t g move = some (g', l')) : ActStep t g .idle move g' l' := by
  unfold enter at h
  split at h
  · split at h
    · simp only [Option.some.injEq, Prod.mk.injEq] at h
      obtain ⟨rfl, rfl⟩ := h
      exact .init (Option.isNone_iff_eq_none.mp ‹_›)
    · simp at h
  · simp only [Option.some.injEq, Prod.mk.injEq] at h
    obtain ⟨rfl, rfl⟩ := h
    exact .enterRun
  · simp only [Option.some.injEq, Prod.mk.injEq] at h
    obtain ⟨rfl, rfl⟩ := h
    exact .enterStop
  · simp only [Option.some.injEq, Prod.mk.injEq] at h
    obtain ⟨rfl, rfl⟩ := h
    exact .enterEmergency
  · split at h
    · rename_i hcond
      simp only [Option.some.injEq, Prod.mk.injEq] at h
      obtain ⟨rfl, rfl⟩ := h
      exact .enterCallback _ hcond.1 hcond.2
    · simp at h
  · simp at h

theorem advance_cases {t : ι} {g g' : Shared ι} {l l' : Act} {move : Move}
    (h : advance t g l move = some (g', l')) : ActStep t g l move g' l' := by
  cases l with
  | idle => exact enter_cases h
  | init => simp [advance] at h
  | run pc =>
      simp only [advance, Option.map_eq_some_iff, Prod.mk.injEq] at h
      obtain ⟨⟨g', pc'⟩, hrun, rfl, rfl⟩ := h
      exact .run (llingrRun_cases hrun)
  | stop pc =>
      simp only [advance, Option.map_eq_some_iff, Prod.mk.injEq] at h
      obtain ⟨⟨g', pc'⟩, hstop, rfl, rfl⟩ := h
      exact .stop (llingrStop_cases hstop)
  | emergency pc =>
      simp only [advance, Option.map_eq_some_iff, Prod.mk.injEq] at h
      obtain ⟨⟨g', pc'⟩, hemergency, rfl, rfl⟩ := h
      rw [emergencyStop_shared hemergency]
      exact .emergency pc pc' move
  | callback reason pc =>
      simp only [advance, Option.map_eq_some_iff, Prod.mk.injEq] at h
      obtain ⟨⟨g', pc'⟩, hcallback, rfl, rfl⟩ := h
      exact .callback (shutdownCallback_cases hcallback)

/-- A step of a thread with a stop frame is a step of that frame, or the handler's
resumption after the frame has returned. -/
theorem ActStep.stopFrame {t : ι} {g g' : Shared ι} {l l' : Act} {move : Move} {pc : StopPc}
    (h : ActStep t g l move g' l') (hframe : l.stopFrame = some pc) :
    (∃ pc', StopStep t g pc g' pc' ∧ l'.stopFrame = some pc') ∨
      (∃ result, pc = .returned result) ∧ g' = g ∧ l'.stopFrame = none := by
  cases h with
  | stop hstop =>
      cases hframe
      exact .inl ⟨_, hstop, rfl⟩
  | callback hcallback =>
      cases hcallback with
      | nested hstop =>
          cases hframe
          exact .inl ⟨_, hstop, rfl⟩
      | resume result =>
          cases hframe
          exact .inr ⟨⟨result, rfl⟩, rfl, rfl⟩
      | _ => simp [Act.stopFrame] at hframe
  | _ => simp [Act.stopFrame] at hframe

/-- The number of calls of `Shutdown` never falls. -/
theorem ActStep.shutdownCalls_le {t : ι} {g g' : Shared ι} {l l' : Act} {move : Move}
    (h : ActStep t g l move g' l') : g.hist.shutdownCalls ≤ g'.hist.shutdownCalls := by
  have hstop : ∀ {pc pc' g'}, StopStep t g pc g' pc' →
      g.hist.shutdownCalls ≤ g'.hist.shutdownCalls := by
    intro pc pc' g' hstop
    cases hstop with
    | callShutdown cancel => exact Nat.le_succ _
    | _ => exact le_rfl
  cases h with
  | run hrun => cases hrun <;> exact le_rfl
  | stop h => exact hstop h
  | callback hcallback =>
      cases hcallback with
      | nested h => exact hstop h
      | _ => exact le_rfl
  | _ => exact le_rfl

section

variable [DecidableEq ι] {shutdownFn : Bool}

/-- A step of the machine is a move of the thread its label names. -/
theorem actStep_of_next {c d : Cfg ι} {t : ι} {move : Move}
    (h : (machine ι shutdownFn).next c (t, move) = some d) :
    ActStep t c.shared (c.threads t) move d.shared (d.threads t) :=
  advance_cases (Program.next_eq_some h).1

theorem actStep_of_takes {before after : Cfg ι} {t : ι} {move : Move} {labels : List (ι × Move)}
    (h : (machine ι shutdownFn).Takes (machine ι shutdownFn).start labels before (t, move) after) :
    ActStep t before.shared (before.threads t) move after.shared (after.threads t) := by
  obtain ⟨_, _, _, _, hnext⟩ := h
  exact actStep_of_next hnext

end

end LlingrKafka.Lifecycle
