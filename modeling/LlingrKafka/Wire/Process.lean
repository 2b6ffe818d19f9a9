import LlingrKafka.Bridge.Callbacks
import LlingrKafka.Wire.Trampolines

/-!
# Calling the host's handlers

`makeProcessMessage` and `makeWriteDeadLetter` of `bridge/main.go`, each composed with
the trampoline it calls.  A Go error is its text, and nil is `none`.

The result is `none` when the process does not survive the call: a Go panic while
packing, undefined behaviour, or a panic that unwinds out of the trampoline.
-/

namespace LlingrKafka.Wire

open Bridge FixedWidth Memory Utf8

/-- `errBufCap`. -/
def errBufCap : ℕ := 1024

/-- The error variables of a call: a zeroed buffer and a zero length. -/
def freshErrOut : ErrOut := ⟨some (List.replicate errBufCap 0), errBufCap, some 0⟩

/-- What a `nexus.ProcessMessage` leaves: memory, the traits `AddCustomTraits` was called
with, if it was, and the error. -/
structure ProcessReturn where
  heap : Heap
  traits : Option (BitVec 64)
  err : Option Bytes
  deriving DecidableEq, Repr

/-- The deferred frees, last first. -/
def releaseRecord (m : Heap) (args : RecordArgs) : Option Heap :=
  (m.freePointer args.headers).bind fun m' => m'.free args.key

/-- The error `makeProcessMessage` makes of a return code and the error variables. -/
def processError (rc : ℤ) (out : ErrOut) : Option Bytes :=
  if rc = 0 then none
  else if 0 < out.len.getD 0 then some ((out.buf.getD []).take (out.len.getD 0).toNat)
  else some (encode ("process callback returned error code: " ++ toString rc))

/-- The traits `makeProcessMessage` applies. -/
def processTraits (traitsOut : ℤ) : Option (BitVec 64) :=
  if traitsOut = 0 then none else some (BitVec.ofInt 64 traitsOut)

variable {T : Type*}

/-- `makeProcessMessage`. -/
def makeProcessMessage (callbacks : CallbackSet) (handlers : Option HandlerSet)
    (valueOf : T → Option Bytes) (metaOf : T → RecordMeta) (m : Heap) (msg : Envelope T) :
    Option ProcessReturn :=
  if callbacks.process then
    (packRecord valueOf metaOf m msg).bind fun packed =>
      (processTrampoline handlers packed.1 packed.2 ⟨some 0, freshErrOut⟩).bind fun left =>
        left.externC.bind fun r =>
          (releaseRecord packed.1 packed.2).map fun heap =>
            ⟨heap, processTraits (r.2.traitsOut.getD 0), processError r.1 r.2.err⟩
  else some ⟨m, none, some (encode "llingr: no process callback registered")⟩

/-- The error `makeWriteDeadLetter` makes of a return code. -/
def deadletterError (rc : ℤ) : Option Bytes :=
  if rc = 0 then none
  else some (encode ("dead-letter callback returned error code: " ++ toString rc))

/-- `makeWriteDeadLetter`: memory, and the error. -/
def makeWriteDeadLetter (callbacks : CallbackSet) (handlers : Option HandlerSet)
    (valueOf : T → Option Bytes) (metaOf : T → RecordMeta) (m : Heap) (msg : Envelope T)
    (reason : Option Bytes) : Option (Heap × Option Bytes) :=
  if callbacks.deadletter then
    (packRecord valueOf metaOf m msg).bind fun packed =>
      let reasonStr := reason.getD []
      (cString packed.1 reasonStr).bind fun reasonPtr =>
        (deadletterTrampoline handlers reasonPtr.1 packed.2 reasonPtr.2
          (wrap 32 reasonStr.length)).bind fun left =>
          left.externC.bind fun rc =>
            (reasonPtr.1.free reasonPtr.2).bind fun m' =>
              (releaseRecord m' packed.2).map fun heap => (heap, deadletterError rc)
  else some (m, none)

end LlingrKafka.Wire
