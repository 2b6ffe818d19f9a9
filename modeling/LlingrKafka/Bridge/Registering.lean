import LlingrKafka.Bridge.Callbacks
import LlingrKafka.Foundations.Threads

/-!
# Registering host callbacks, step by step

`setCallback`, `sealCallbacks` and `loadCallbacks` of `bridge/main.go` with every
access to shared memory a step of its own: the mutex, the seal flag, the atomic
pointer, and the plain reads and writes of the set behind it.  `Registration` of
`Callbacks.lean` treats a registration as one step; here it is the code of one
thread of a `Program`, so setters, the seal of `llingr_init` and the readers of any
number of goroutines interleave.

A `callbackSet` lives on the heap under the name of the call whose local `next` it
is.  A nil pointer is backed by `emptyCallbacks`.  The pointers are of an arbitrary
type, nil being `none`.
-/

namespace LlingrKafka.Bridge

/-- The setters the host library exports. -/
inductive CallbackKind
  | process
  | deadletter
  | metrics
  | shutdown
  | log
  | bandwidth
  deriving DecidableEq, Repr

/-- The name a setter reports itself under. -/
def CallbackKind.exportName : CallbackKind → String
  | .process => "llingr_on_process"
  | .deadletter => "llingr_on_deadletter"
  | .metrics => "llingr_on_metrics"
  | .shutdown => "llingr_on_shutdown"
  | .log => "llingr_on_log"
  | .bandwidth => "llingr_on_bandwidth"

/-- `callbackSet`, with the pointers themselves. -/
structure CallbackTable (φ : Type*) where
  process : Option φ
  deadletter : Option φ
  metrics : Option φ
  shutdown : Option φ
  log : Option φ
  bandwidth : Option φ
  deriving DecidableEq, Repr

namespace CallbackTable

variable {φ : Type*}

/-- `emptyCallbacks`. -/
def empty : CallbackTable φ := ⟨none, none, none, none, none, none⟩

/-- The function literal each setter passes to `setCallback`. -/
def set (kind : CallbackKind) (cb : Option φ) (table : CallbackTable φ) : CallbackTable φ :=
  match kind with
  | .process => { table with process := cb }
  | .deadletter => { table with deadletter := cb }
  | .metrics => { table with metrics := cb }
  | .shutdown => { table with shutdown := cb }
  | .log => { table with log := cb }
  | .bandwidth => { table with bandwidth := cb }

def get (table : CallbackTable φ) : CallbackKind → Option φ
  | .process => table.process
  | .deadletter => table.deadletter
  | .metrics => table.metrics
  | .shutdown => table.shutdown
  | .log => table.log
  | .bandwidth => table.bandwidth

@[simp] theorem get_set_self (kind : CallbackKind) (cb : Option φ) (table : CallbackTable φ) :
    (table.set kind cb).get kind = cb := by
  cases kind <;> rfl

theorem get_set_of_ne {kind other : CallbackKind} (hne : other ≠ kind) (cb : Option φ)
    (table : CallbackTable φ) : (table.set kind cb).get other = table.get other := by
  cases kind <;> cases other <;> first | rfl | exact absurd rfl hne

/-- Which of the pointers are non-nil. -/
def present (table : CallbackTable φ) : CallbackSet where
  process := table.process.isSome
  deadletter := table.deadletter.isSome
  metrics := table.metrics.isSome
  shutdown := table.shutdown.isSome
  log := table.log.isSome
  bandwidth := table.bandwidth.isSome

end CallbackTable

/-- What a goroutine asks of the registration. -/
inductive RegistrationCall (φ : Type*)
  | set (kind : CallbackKind) (cb : Option φ)
  | sealCallbacks
  | load
  deriving DecidableEq, Repr

/-- What it is answered. -/
inductive RegistrationResult (φ : Type*)
  | applied (applied : Bool)
  | sealed
  | table (table : CallbackTable φ)
  deriving DecidableEq, Repr

/-- Where a setter stands.  `copy` holds the pointer `loadCallbacks` read. -/
inductive SetterPc (ι : Type*)
  | lock
  | check
  | load
  | copy (ptr : Option ι)
  | mutate
  | store
  | unlock (applied : Bool)
  | reject
  deriving DecidableEq, Repr

inductive SealPc
  | lock
  | store
  | unlock
  deriving DecidableEq, Repr

/-- Where a reader stands: before the atomic load, or holding what it loaded. -/
inductive ReaderPc (ι : Type*)
  | load
  | deref (ptr : Option ι)
  deriving DecidableEq, Repr

/-- The local state of a goroutine. -/
inductive RegistrationAct (ι φ : Type*)
  | idle
  | setter (kind : CallbackKind) (cb : Option φ) (pc : SetterPc ι)
  | sealing (pc : SealPc)
  | reader (pc : ReaderPc ι)
  | returning (result : RegistrationResult φ)
  | returned
  deriving DecidableEq, Repr

inductive RegistrationMove (φ : Type*)
  | call (call : RegistrationCall φ)
  | step
  deriving DecidableEq, Repr

/-- The memory the goroutines share: the holder of `registrationMu`,
`callbacksSealed`, `registeredCallbacks`, and the sets on the heap. -/
structure RegistrationMemory (ι φ : Type*) where
  registrationMu : Option ι
  callbacksSealed : Bool
  registeredCallbacks : Option ι
  heap : ι → Option (CallbackTable φ)

variable {ι φ : Type*}

/-- The set a pointer leads to, which for nil is `emptyCallbacks`. -/
def RegistrationMemory.deref (g : RegistrationMemory ι φ) : Option ι → Option (CallbackTable φ)
  | none => some .empty
  | some owner => g.heap owner

def RegistrationMemory.write [DecidableEq ι] (g : RegistrationMemory ι φ) (owner : ι)
    (table : CallbackTable φ) : RegistrationMemory ι φ :=
  { g with heap := Function.update g.heap owner (some table) }

/-- `rejectLateRegistration`. -/
def rejectLateRegistration (name : String) : String :=
  "llingr: " ++ name ++
    " after successful llingr_init is ignored (register callbacks before init)\n"

/-- A `llingr_on_*` setter: `setCallback`, and the report of a late registration. -/
def llingrOn [DecidableEq ι] (t : ι) (kind : CallbackKind) (cb : Option φ)
    (g : RegistrationMemory ι φ) :
    SetterPc ι → Option (RegistrationMemory ι φ × RegistrationAct ι φ)
  | .lock =>
      match g.registrationMu with
      | none => some ({ g with registrationMu := some t }, .setter kind cb .check)
      | some _ => none
  | .check =>
      if g.callbacksSealed then some (g, .setter kind cb (.unlock false))
      else some (g, .setter kind cb .load)
  | .load => some (g, .setter kind cb (.copy g.registeredCallbacks))
  | .copy ptr => (g.deref ptr).map fun table => (g.write t table, .setter kind cb .mutate)
  | .mutate =>
      (g.heap t).map fun table => (g.write t (table.set kind cb), .setter kind cb .store)
  | .store => some ({ g with registeredCallbacks := some t }, .setter kind cb (.unlock true))
  | .unlock applied =>
      -- the deferred unlock comes before the report
      some ({ g with registrationMu := none },
        if applied then .returning (.applied true) else .setter kind cb .reject)
  | .reject => some (g, .returning (.applied false))

/-- `sealCallbacks`. -/
def sealCallbacks (t : ι) (g : RegistrationMemory ι φ) :
    SealPc → Option (RegistrationMemory ι φ × RegistrationAct ι φ)
  | .lock =>
      match g.registrationMu with
      | none => some ({ g with registrationMu := some t }, .sealing .store)
      | some _ => none
  | .store => some ({ g with callbacksSealed := true }, .sealing .unlock)
  | .unlock => some ({ g with registrationMu := none }, .returning .sealed)

/-- A use of `loadCallbacks`: the atomic load, and later the read behind it. -/
def readCallbacks (g : RegistrationMemory ι φ) :
    ReaderPc ι → Option (RegistrationMemory ι φ × RegistrationAct ι φ)
  | .load => some (g, .reader (.deref g.registeredCallbacks))
  | .deref ptr => (g.deref ptr).map fun table => (g, .returning (.table table))

/-- The first step of a call. -/
def RegistrationCall.begin : RegistrationCall φ → RegistrationAct ι φ
  | .set kind cb => .setter kind cb .lock
  | .sealCallbacks => .sealing .lock
  | .load => .reader .load

/-- One move of goroutine `t`. -/
def registrationStep [DecidableEq ι] (t : ι) (g : RegistrationMemory ι φ) :
    RegistrationAct ι φ → RegistrationMove φ →
      Option (RegistrationMemory ι φ × RegistrationAct ι φ)
  | .idle, .call call => some (g, call.begin)
  | .setter kind cb pc, .step => llingrOn t kind cb g pc
  | .sealing pc, .step => sealCallbacks t g pc
  | .reader pc, .step => readCallbacks g pc
  | .returning _, .step => some (g, .returned)
  | _, _ => none

/-- Concurrent registration, sealing and reading. -/
def registrationProgram (ι φ : Type*) [DecidableEq ι] :
    Program ι (RegistrationMemory ι φ) (RegistrationAct ι φ) (RegistrationMove φ) where
  shared := ⟨none, false, none, fun _ => none⟩
  fresh := .idle
  step := registrationStep

abbrev RegistrationCfg (ι φ : Type*) := Config ι (RegistrationMemory ι φ) (RegistrationAct ι φ)

abbrev registrationMachine (ι φ : Type*) [DecidableEq ι] :
    Machine (RegistrationCfg ι φ) (ι × RegistrationMove φ) :=
  (registrationProgram ι φ).machine

/-! ## The registration as one object -/

/-- The registration a caller reasons about: a set and whether it is sealed. -/
structure Registry (φ : Type*) where
  table : CallbackTable φ
  sealed : Bool

/-- One call on it, done at once. -/
def Registry.apply (reg : Registry φ) : RegistrationCall φ → Registry φ × RegistrationResult φ
  | .set kind cb =>
      if reg.sealed then (reg, .applied false)
      else ({ reg with table := reg.table.set kind cb }, .applied true)
  | .sealCallbacks => ({ reg with sealed := true }, .sealed)
  | .load => (reg, .table reg.table)

/-- A caller of the object: it has called, has been served, has printed the report
of a late registration, or is done. -/
inductive CallerAct (φ : Type*)
  | idle
  | called (call : RegistrationCall φ)
  | served (call : RegistrationCall φ) (result : RegistrationResult φ)
  | returning (result : RegistrationResult φ)
  | returned

inductive CallerMove (φ : Type*)
  | call (call : RegistrationCall φ)
  | serve
  | report
  | ret

/-- A served setter that was refused reports it before it returns. -/
def RegistrationCall.reports : RegistrationCall φ → RegistrationResult φ → Option String
  | .set kind _, .applied false => some (rejectLateRegistration kind.exportName)
  | _, _ => none

def callerStep (_t : ι) (reg : Registry φ) :
    CallerAct φ → CallerMove φ → Option (Registry φ × CallerAct φ)
  | .idle, .call call => some (reg, .called call)
  | .called call, .serve => some ((reg.apply call).1, .served call (reg.apply call).2)
  | .served _ result, .report => some (reg, .returning result)
  | .returning _, .ret => some (reg, .returned)
  | _, _ => none

/-- Concurrent callers of one object that serves each call in one step. -/
def registryProgram (ι φ : Type*) : Program ι (Registry φ) (CallerAct φ) (CallerMove φ) where
  shared := ⟨.empty, false⟩
  fresh := .idle
  step := callerStep

abbrev CallerCfg (ι φ : Type*) := Config ι (Registry φ) (CallerAct φ)

abbrev registryMachine (ι φ : Type*) [DecidableEq ι] :
    Machine (CallerCfg ι φ) (ι × CallerMove φ) :=
  (registryProgram ι φ).machine

/-- What a host sees: calls, lines on stderr, and returns with their answers. -/
inductive RegistrationEvent (ι φ : Type*)
  | call (goroutine : ι) (call : RegistrationCall φ)
  | stderr (line : String)
  | ret (goroutine : ι) (result : RegistrationResult φ)
  deriving DecidableEq, Repr

/-- What a step of the code shows. -/
def registrationSee (c : RegistrationCfg ι φ) (label : ι × RegistrationMove φ) :
    Option (RegistrationEvent ι φ) :=
  match c.threads label.1, label.2 with
  | .idle, .call call => some (.call label.1 call)
  | .setter kind _ .reject, .step => some (.stderr (rejectLateRegistration kind.exportName))
  | .returning result, .step => some (.ret label.1 result)
  | _, _ => none

/-- What a step of the object shows. -/
def registrySee (c : CallerCfg ι φ) (label : ι × CallerMove φ) : Option (RegistrationEvent ι φ) :=
  match c.threads label.1, label.2 with
  | .idle, .call call => some (.call label.1 call)
  | .served call result, .report => (call.reports result).map .stderr
  | .returning result, .ret => some (.ret label.1 result)
  | _, _ => none

end LlingrKafka.Bridge
