import Mathlib.Data.Option.Basic

/-!
# Registering host callbacks

`callbackSet`, `setCallback`, `loadCallbacks` and `sealCallbacks` of
`bridge/main.go`.  A callback is represented by whether its pointer is non-nil:
the bridge only ever tests the pointers before it calls through them.

Setters copy the published set, change the copy and publish it, all under
`registrationMu`, and the seal is taken under the same mutex; so a registration
is one atomic step.
-/

namespace LlingrKafka.Bridge

/-- `callbackSet`: which of the six pointers are registered. -/
structure CallbackSet where
  process : Bool
  deadletter : Bool
  metrics : Bool
  shutdown : Bool
  log : Bool
  bandwidth : Bool
  deriving DecidableEq, Repr

/-- `emptyCallbacks`. -/
def emptyCallbacks : CallbackSet := ⟨false, false, false, false, false, false⟩

/-- `registeredCallbacks` and `callbacksSealed`. -/
structure Registration where
  registeredCallbacks : Option CallbackSet
  callbacksSealed : Bool
  deriving DecidableEq, Repr

namespace Registration

def start : Registration := ⟨none, false⟩

/-- `loadCallbacks`: never nil. -/
def loadCallbacks (reg : Registration) : CallbackSet :=
  reg.registeredCallbacks.getD emptyCallbacks

/-- `setCallback`, with whether the registration was applied. -/
def setCallback (mutate : CallbackSet → CallbackSet) (reg : Registration) : Registration × Bool :=
  if reg.callbacksSealed then (reg, false)
  else ({ reg with registeredCallbacks := some (mutate reg.loadCallbacks) }, true)

/-- `sealCallbacks`. -/
def sealCallbacks (reg : Registration) : Registration := { reg with callbacksSealed := true }

@[simp] theorem loadCallbacks_sealCallbacks (reg : Registration) :
    reg.sealCallbacks.loadCallbacks = reg.loadCallbacks := rfl

@[simp] theorem setCallback_sealed (mutate : CallbackSet → CallbackSet) {reg : Registration}
    (hsealed : reg.callbacksSealed = true) : reg.setCallback mutate = (reg, false) := by
  simp [setCallback, hsealed]

theorem loadCallbacks_setCallback (mutate : CallbackSet → CallbackSet) {reg : Registration}
    (hopen : reg.callbacksSealed = false) :
    (reg.setCallback mutate).1.loadCallbacks = mutate reg.loadCallbacks := by
  simp [setCallback, hopen, loadCallbacks]

@[simp] theorem callbacksSealed_setCallback (mutate : CallbackSet → CallbackSet)
    (reg : Registration) :
    (reg.setCallback mutate).1.callbacksSealed = reg.callbacksSealed := by
  unfold setCallback
  split <;> rfl

end Registration

/-! The setters a host calls. -/

def llingrOnProcess (reg : Registration) : Registration :=
  (reg.setCallback fun set => { set with process := true }).1

def llingrOnDeadletter (reg : Registration) : Registration :=
  (reg.setCallback fun set => { set with deadletter := true }).1

def llingrOnMetrics (reg : Registration) : Registration :=
  (reg.setCallback fun set => { set with metrics := true }).1

def llingrOnShutdown (reg : Registration) : Registration :=
  (reg.setCallback fun set => { set with shutdown := true }).1

def llingrOnLog (reg : Registration) : Registration :=
  (reg.setCallback fun set => { set with log := true }).1

def llingrOnBandwidth (reg : Registration) : Registration :=
  (reg.setCallback fun set => { set with bandwidth := true }).1

end LlingrKafka.Bridge
