import LlingrKafka.Bridge.Callbacks
import LlingrKafka.Bridge.Error
import LlingrKafka.Bridge.State
import LlingrKafka.Foundations.Threads
import Mathlib.Order.Nat
import Mathlib.Tactic.Common

/-!
# `llingr_init`

The atomic steps of `llingr_init`, as the code of one thread of a `Program`, with
any number of callers and with hosts that register callbacks at any moment.

What parsing the document, logging the adapters and building the consumer come to
is a choice of the label (`Outcome`): they may succeed, return an error, or
panic.  A panic unwinds through the deferred calls in LIFO order, so the lock is
released first and the recovery runs last (`Ending`).
-/

namespace LlingrKafka.Bridge

/-- How a section that runs foreign code ends. -/
inductive Outcome
  | done
  | failed (err : BridgeError)
  | panicked (value : String)
  deriving DecidableEq, Repr

/-- How the body of `llingr_init` is left, before its deferred calls run. -/
inductive Ending
  | returns (rc : ℤ)
  | panics (value : String)
  deriving DecidableEq, Repr

/-- Whether the context of a call is still live. -/
inductive CtxStatus
  | live
  | cancelled
  deriving DecidableEq, Repr

/-- Where a call of `llingr_init` stands. -/
inductive InitPc
  | lock
  | check
  | parse
  | log
  | newContext
  | build
  | abandon (err : BridgeError)
  | publish
  | sealing
  | disown
  | unlock (ending : Ending)
  | recover (ending : Ending)
  | returned (rc : ℤ)
  deriving DecidableEq, Repr

/-- A call of `llingr_init`: its variable `cancel` (is it non-nil), the context it
has created, and the text it handed to `writeInitErr`. -/
structure InitFrame where
  pc : InitPc
  cancel : Bool
  ctx : Option CtxStatus
  text : Option String
  deriving DecidableEq, Repr

/-- A thread calls `llingr_init` or registers one callback. -/
inductive InitAct
  | idle
  | call (frame : InitFrame)
  | registered (applied : Bool)
  deriving DecidableEq, Repr

/-- The memory the callers share. -/
structure InitShared (ι : Type*) where
  state : BridgeState ι
  initMu : Option ι
  registration : Registration
  deriving DecidableEq, Repr

/-- One move of one thread. -/
inductive InitMove
  | call
  | register (mutate : CallbackSet → CallbackSet)
  | step
  | outcome (result : Outcome)

/-- What a call reports when an engine exists. -/
def alreadyInitText : String := "already initialised (one llingr instance per process)"

variable {ι : Type*}

/-- `llingr_init`. -/
def llingrInit (t : ι) (g : InitShared ι) (frame : InitFrame) (move : InitMove) :
    Option (InitShared ι × InitFrame) :=
  match frame.pc, move with
  | .lock, .step =>
      match g.initMu with
      | none => some ({ g with initMu := some t }, { frame with pc := .check })
      | some _ => none
  | .check, .step =>
      match g.state.consumer with
      | some _ => some (g, { frame with
          text := some alreadyInitText
          pc := .unlock (.returns ErrCode.alreadyInit.rc) })
      | none => some (g, { frame with pc := .parse })
  | .parse, .outcome .done => some (g, { frame with pc := .log })
  | .parse, .outcome (.failed err) =>
      some (g, { frame with text := some err.msg, pc := .unlock (.returns err.code.rc) })
  | .parse, .outcome (.panicked value) => some (g, { frame with pc := .unlock (.panics value) })
  | .log, .outcome .done => some (g, { frame with pc := .newContext })
  | .log, .outcome (.panicked value) => some (g, { frame with pc := .unlock (.panics value) })
  | .newContext, .step =>
      some (g, { frame with cancel := true, ctx := some .live, pc := .build })
  | .build, .outcome .done => some (g, { frame with pc := .publish })
  | .build, .outcome (.failed err) => some (g, { frame with pc := .abandon err })
  | .build, .outcome (.panicked value) => some (g, { frame with pc := .unlock (.panics value) })
  | .abandon err, .step =>
      some (g, { frame with
        ctx := some .cancelled
        text := some err.msg
        pc := .unlock (.returns err.code.rc) })
  | .publish, .step => some ({ g with state := g.state.publish t }, { frame with pc := .sealing })
  | .sealing, .step =>
      some ({ g with registration := g.registration.sealCallbacks }, { frame with pc := .disown })
  | .disown, .step => some (g, { frame with cancel := false, pc := .unlock (.returns 0) })
  | .unlock ending, .step =>
      some ({ g with initMu := none }, { frame with pc := .recover ending })
  | .recover (.returns rc), .step => some (g, { frame with pc := .returned rc })
  | .recover (.panics value), .step =>
      some (g, { frame with
        ctx := if frame.cancel then some .cancelled else frame.ctx
        text := some ("invalid configuration: " ++ value)
        pc := .returned ErrCode.badOption.rc })
  | _, _ => none

/-- A call that has not taken its first step. -/
def InitFrame.entered : InitFrame := ⟨.lock, false, none, none⟩

/-- One move of thread `t`. -/
def initStep (t : ι) (g : InitShared ι) : InitAct → InitMove → Option (InitShared ι × InitAct)
  | .idle, .call => some (g, .call .entered)
  | .idle, .register mutate =>
      some ({ g with registration := (g.registration.setCallback mutate).1 },
        .registered (g.registration.setCallback mutate).2)
  | .call frame, move => (llingrInit t g frame move).map fun r => (r.1, .call r.2)
  | _, _ => none

/-- Concurrent calls of `llingr_init`. -/
def initProgram (ι : Type*) : Program ι (InitShared ι) InitAct InitMove where
  shared := ⟨.zero, none, .start⟩
  fresh := .idle
  step := initStep

abbrev InitCfg (ι : Type*) := Config ι (InitShared ι) InitAct

abbrev initMachine (ι : Type*) [DecidableEq ι] : Machine (InitCfg ι) (ι × InitMove) :=
  (initProgram ι).machine

/-- The value a thread's call has returned. -/
def InitAct.rc : InitAct → Option ℤ
  | .call ⟨.returned rc, _, _, _⟩ => some rc
  | _ => none

/-- The context a thread's call has created. -/
def InitAct.ctx : InitAct → Option CtxStatus
  | .call frame => frame.ctx
  | _ => none

end LlingrKafka.Bridge
