import Mathlib.Data.Nat.Notation
import Mathlib.Data.Option.Basic

/-!
# The lifecycle state of the bridge

`BridgeState` is the process-global record of `bridge/main.go` that
`llingr_init`, `llingr_run`, `llingr_stop`, `llingr_emergency_stop` and the
shutdown callback share.  The type `ι` names the calls that are in flight; a
consumer, its context and its broker-release function are named by the
`llingr_init` call that built them.

Sections of the source that hold `state.mu` only read or write fields of this
record, and every access to those fields holds it, so each is one atomic step.
`stopGateOpen` is an atomic of its own.  `runDoneOnce` is *not* one step:
`sync.Once` makes a second caller wait until the first has run the function, and
that wait is what `Once.running` models.
-/

namespace LlingrKafka.Bridge

/-- A `chan struct{}` that only ever signals by being closed, with the number of
times it was closed.  Closing it twice would panic in Go. -/
structure Chan where
  closes : ℕ
  deriving DecidableEq, Repr

/-- A `sync.Once`: its function has not started, is running in goroutine `by`,
or has finished. -/
inductive Once (ι : Type*)
  | fresh
  | running (goroutine : ι)
  | done
  deriving DecidableEq, Repr

/-- How often the function of a `sync.Once` has run to its end. -/
def Once.fired {ι : Type*} : Once ι → ℕ
  | .fresh | .running _ => 0
  | .done => 1

/-- `bridgeState` of `bridge/main.go`. -/
structure BridgeState (ι : Type*) where
  consumer : Option ι
  cancel : Option ι
  runDone : Option Chan
  runDoneOnce : Once ι
  stopGateOpen : Bool
  brokerCleanup : Option ι
  deriving DecidableEq, Repr

namespace BridgeState

variable {ι : Type*}

/-- The zero value of `var state bridgeState`. -/
def zero : BridgeState ι :=
  ⟨none, none, none, .fresh, false, none⟩

/-- The publication at the end of a successful `llingr_init`, one section under
`state.mu`. -/
def publish (state : BridgeState ι) (call : ι) : BridgeState ι :=
  { state with
    cancel := some call
    consumer := some call
    brokerCleanup := some call
    runDone := some ⟨0⟩ }

/-- `runDone` has been made and closed. -/
def RunDoneClosed (state : BridgeState ι) : Prop :=
  ∃ done, state.runDone = some done ∧ 0 < done.closes

end BridgeState

/-- Where a goroutine stands inside `signalRunDone`: before its read of
`state.runDone`, before `runDoneOnce.Do`, inside the function given to `Do`, or
about to return. -/
inductive SignalPc
  | load
  | enter
  | close
  | done
  deriving DecidableEq, Repr

/-- One atomic step of `signalRunDone` in `goroutine`. -/
def signalRunDone {ι : Type*} (goroutine : ι) (state : BridgeState ι) :
    SignalPc → Option (BridgeState ι × SignalPc)
  | .load =>
      match state.runDone with
      | none => some (state, .done)
      | some _ => some (state, .enter)
  | .enter =>
      match state.runDoneOnce with
      | .fresh => some ({ state with runDoneOnce := .running goroutine }, .close)
      | .running _ => none
      | .done => some (state, .done)
  | .close =>
      some ({ state with
        runDoneOnce := .done
        runDone := state.runDone.map fun done => ⟨done.closes + 1⟩ }, .done)
  | .done => none

end LlingrKafka.Bridge
