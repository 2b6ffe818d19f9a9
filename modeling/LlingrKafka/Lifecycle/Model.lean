import LlingrKafka.Bridge.State
import LlingrKafka.Foundations.Threads
import Mathlib.Data.Int.Notation

/-!
# Running and stopping the engine

The atomic steps of `llingr_run`, `llingr_stop`, `llingr_emergency_stop` and the
shutdown callback of `bridge/main.go`, as the code of one thread of a `Program`.
Every call is a thread of its own, so the interleavings of the machine are the
interleavings of any number of calls from any threads.

The engine is not in the repository.  What it may do is a choice of the label:

* `Move.engine` ends the engine call a thread is blocked in (`Subscribe`,
  `Shutdown`, `EmergencyShutdown`, the adapter's `Unsubscribe`) with any outcome,
  at any time;
* `Move.callback` invokes the shutdown callback on some goroutine.  The engine
  delivers it at most once, on whichever exit happens first, with a nil reason
  for a graceful one.

A host shutdown handler may call `llingr_stop` before it returns.  That call runs
on the same goroutine, so it is a stop frame nested in the callback's own local
state (`CallbackPc.inHandler`).

`History` records what has happened; no step of the source reads it.  `exit` is
the goroutine and the reason the engine delivered the callback with.
-/

namespace LlingrKafka.Lifecycle

open Bridge

/-- The exports a host thread may call. -/
inductive Call
  | init
  | run
  | stop
  | emergencyStop
  deriving DecidableEq, Repr

/-- How an engine call ends. -/
inductive EngineOutcome
  | returned
  | failed
  | panicked
  deriving DecidableEq, Repr

/-- One move of one thread. -/
inductive Move
  | call (export_ : Call)
  | callback (reason : Option String)
  | step
  | engine (outcome : EngineOutcome)
  | handlerStops
  | handlerReturns
  deriving DecidableEq, Repr

/-- What has happened in the run so far. -/
structure History (ι : Type*) where
  runCalled : Option ι
  gateOpened : Bool
  winner : Option ι
  shutdownCalls : ℕ
  shutdownFinished : Bool
  stopReturned : Bool
  exit : Option (ι × Option String)
  exitDelivered : Bool
  handlerReturned : Bool
  cleanupCalls : ℕ
  cleanupAttempted : Bool
  callbackReturned : Bool
  runReturned : Bool
  deriving DecidableEq, Repr

/-- The memory the calls share: the bridge state, whether the bridge context is
cancelled, whether the host registered a shutdown callback, and the history. -/
structure Shared (ι : Type*) where
  state : BridgeState ι
  ctxCancelled : Bool
  shutdownFn : Bool
  hist : History ι
  deriving DecidableEq, Repr

/-- How a call of `llingr_stop` ended: before `llingr_init`, at a closed gate, or
after driving `Shutdown`. -/
inductive StopResult
  | noConsumer
  | lost
  | won
  deriving DecidableEq, Repr

/-- Where a call of `llingr_stop` stands.  `cancel` says whether the context's
cancel function it read was non-nil. -/
inductive StopPc
  | load
  | cas (cancel : Bool)
  | shutdown (cancel : Bool)
  | inShutdown (cancel : Bool)
  | cancel (cancel : Bool)
  | signal (pc : SignalPc)
  | returned (result : StopResult)
  deriving DecidableEq, Repr

/-- Where a call of `llingr_run` stands. -/
inductive RunPc
  | load
  | openGate
  | inSubscribe
  | park
  | returned (rc : ℤ)
  deriving DecidableEq, Repr

/-- Where a call of `llingr_emergency_stop` stands. -/
inductive EmergencyPc
  | load
  | inEmergencyShutdown
  | returned
  deriving DecidableEq, Repr

/-- Where the shutdown callback stands: its gate-closing store, its read of the
registered handler, the host handler (with the stop the handler is inside of, if
any), `emergencyBrokerCleanup`, and `signalRunDone`. -/
inductive CallbackPc
  | storeGate
  | loadHandler
  | inHandler (nested : Option StopPc)
  | cleanupLoad
  | inCleanup (cancel : Bool)
  | cleanupCancel (cancel : Bool)
  | signal (pc : SignalPc)
  | returned
  deriving DecidableEq, Repr

/-- The local state of a thread. -/
inductive Act
  | idle
  | init
  | run (pc : RunPc)
  | stop (pc : StopPc)
  | emergency (pc : EmergencyPc)
  | callback (reason : Option String) (pc : CallbackPc)
  deriving DecidableEq, Repr

/-- The stop frame a thread is executing: a call of `llingr_stop`, or the one a
host shutdown handler is inside of. -/
def Act.stopFrame : Act → Option StopPc
  | .stop pc => some pc
  | .callback _ (.inHandler nested) => nested
  | _ => none

/-- The frame has closed an open gate. -/
def StopPc.Won : StopPc → Prop
  | .load | .cas _ | .returned .noConsumer | .returned .lost => False
  | .shutdown _ | .inShutdown _ | .cancel _ | .signal _ | .returned .won => True

variable {ι : Type*}

/-- `llingr_stop`. -/
def llingrStop (t : ι) (g : Shared ι) : StopPc → Move → Option (Shared ι × StopPc)
  | .load, .step =>
      match g.state.consumer with
      | none => some (g, .returned .noConsumer)
      | some _ => some (g, .cas g.state.cancel.isSome)
  | .cas cancel, .step =>
      -- CompareAndSwap(true, false)
      if g.state.stopGateOpen then
        some ({ g with
          state := { g.state with stopGateOpen := false }
          hist := { g.hist with winner := some t } }, .shutdown cancel)
      else some (g, .returned .lost)
  | .shutdown cancel, .step =>
      some ({ g with hist := { g.hist with shutdownCalls := g.hist.shutdownCalls + 1 } },
        .inShutdown cancel)
  | .inShutdown cancel, .engine _ =>
      -- the deferred calls run on a return, an error and a panic alike
      some ({ g with hist := { g.hist with shutdownFinished := true } }, .cancel cancel)
  | .cancel cancel, .step =>
      some ({ g with ctxCancelled := g.ctxCancelled || cancel }, .signal .load)
  | .signal .done, .step =>
      some ({ g with hist := { g.hist with stopReturned := true } }, .returned .won)
  | .signal pc, .step =>
      (signalRunDone t g.state pc).map fun r => ({ g with state := r.1 }, .signal r.2)
  | _, _ => none

/-- `llingr_run`. -/
def llingrRun (g : Shared ι) : RunPc → Move → Option (Shared ι × RunPc)
  | .load, .step =>
      match g.state.consumer with
      | none => some (g, .returned (-1))
      | some _ => some (g, .openGate)
  | .openGate, .step =>
      some ({ g with
        state := { g.state with stopGateOpen := true }
        hist := { g.hist with gateOpened := true } }, .inSubscribe)
  | .inSubscribe, .engine .returned => some (g, .park)
  | .inSubscribe, .engine .failed => some (g, .returned (-2))
  | .inSubscribe, .engine .panicked => some (g, .returned (-3))
  | .park, .step =>
      -- the receive from a channel that is never sent on: enabled once it is closed
      match g.state.runDone with
      | some ⟨closes⟩ =>
          if 0 < closes then
            some ({ g with hist := { g.hist with runReturned := true } }, .returned 0)
          else none
      | none => none
  | _, _ => none

/-- `llingr_emergency_stop`: the gate is not consulted. -/
def emergencyStop (g : Shared ι) : EmergencyPc → Move → Option (Shared ι × EmergencyPc)
  | .load, .step =>
      match g.state.consumer with
      | none => some (g, .returned)
      | some _ => some (g, .inEmergencyShutdown)
  | .inEmergencyShutdown, .engine _ => some (g, .returned)
  | _, _ => none

/-- The deferred calls of the shutdown callback, reached when the host handler
has returned or none is registered: an emergency exit releases the broker first. -/
def afterHandler (reason : Option String) : CallbackPc :=
  if reason.isSome then .cleanupLoad else .signal .load

/-- The callback installed by `shutdownCallback`, with `emergencyBrokerCleanup`. -/
def shutdownCallback (t : ι) (g : Shared ι) (reason : Option String) :
    CallbackPc → Move → Option (Shared ι × CallbackPc)
  | .storeGate, .step =>
      some ({ g with
        state := { g.state with stopGateOpen := false }
        hist := { g.hist with exitDelivered := true } }, .loadHandler)
  | .loadHandler, .step =>
      if g.shutdownFn then some (g, .inHandler none)
      else some ({ g with hist := { g.hist with handlerReturned := true } }, afterHandler reason)
  | .inHandler none, .handlerStops => some (g, .inHandler (some .load))
  | .inHandler none, .handlerReturns =>
      some ({ g with hist := { g.hist with handlerReturned := true } }, afterHandler reason)
  | .inHandler (some (.returned _)), .step => some (g, .inHandler none)
  | .inHandler (some pc), move =>
      (llingrStop t g pc move).map fun r => (r.1, .inHandler (some r.2))
  | .cleanupLoad, .step =>
      match g.state.brokerCleanup with
      | none => some (g, .cleanupCancel g.state.cancel.isSome)
      | some _ =>
          some ({ g with hist := { g.hist with cleanupCalls := g.hist.cleanupCalls + 1 } },
            .inCleanup g.state.cancel.isSome)
  | .inCleanup cancel, .engine _ =>
      some ({ g with hist := { g.hist with cleanupAttempted := true } }, .cleanupCancel cancel)
  | .cleanupCancel cancel, .step =>
      some ({ g with ctxCancelled := g.ctxCancelled || cancel }, .signal .load)
  | .signal .done, .step =>
      some ({ g with hist := { g.hist with callbackReturned := true } }, .returned)
  | .signal pc, .step =>
      (signalRunDone t g.state pc).map fun r => ({ g with state := r.1 }, .signal r.2)
  | _, _ => none

/-- What an idle thread may start. -/
def enter (t : ι) (g : Shared ι) : Move → Option (Shared ι × Act)
  | .call .init =>
      -- the publication of the one successful llingr_init
      if g.state.consumer.isNone then some ({ g with state := g.state.publish t }, .init) else none
  | .call .run => some ({ g with hist := { g.hist with runCalled := some t } }, .run .load)
  | .call .stop => some (g, .stop .load)
  | .call .emergencyStop => some (g, .emergency .load)
  | .callback reason =>
      if g.state.consumer.isSome ∧ g.hist.exit = none then
        some ({ g with hist := { g.hist with exit := some (t, reason) } },
          .callback reason .storeGate)
      else none
  | _ => none

/-- One move of thread `t`. -/
def advance (t : ι) (g : Shared ι) : Act → Move → Option (Shared ι × Act)
  | .idle, move => enter t g move
  | .init, _ => none
  | .run pc, move => (llingrRun g pc move).map fun r => (r.1, .run r.2)
  | .stop pc, move => (llingrStop t g pc move).map fun r => (r.1, .stop r.2)
  | .emergency pc, move => (emergencyStop g pc move).map fun r => (r.1, .emergency r.2)
  | .callback reason pc, move =>
      (shutdownCallback t g reason pc move).map fun r => (r.1, .callback reason r.2)

/-- Nothing has happened yet. -/
def History.start : History ι where
  runCalled := none
  gateOpened := false
  winner := none
  shutdownCalls := 0
  shutdownFinished := false
  stopReturned := false
  exit := none
  exitDelivered := false
  handlerReturned := false
  cleanupCalls := 0
  cleanupAttempted := false
  callbackReturned := false
  runReturned := false

/-- The bridge before `llingr_init`, with or without a registered shutdown
callback. -/
def Shared.start (shutdownFn : Bool) : Shared ι := ⟨.zero, false, shutdownFn, .start⟩

/-- The lifecycle of the bridge as a program of interleaved calls. -/
def program (ι : Type*) (shutdownFn : Bool) : Program ι (Shared ι) Act Move where
  shared := .start shutdownFn
  fresh := .idle
  step := advance

/-- Shared memory and local states of the lifecycle program. -/
abbrev Cfg (ι : Type*) := Config ι (Shared ι) Act

/-- Every interleaving of the calls. -/
abbrev machine (ι : Type*) [DecidableEq ι] (shutdownFn : Bool) : Machine (Cfg ι) (ι × Move) :=
  (program ι shutdownFn).machine

end LlingrKafka.Lifecycle
