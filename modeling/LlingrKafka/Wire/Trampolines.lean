import LlingrKafka.Foundations.Unwind
import LlingrKafka.Wire.Borrow

/-!
# The message trampolines

`process_trampoline` and `deadletter_trampoline` of `src/trampolines.rs`, with
`write_c_err` and `drop_panic_payload`.  The user's handlers are functions that may
return, fail or panic; the text of an error is formatted by user code as well.

The outer `Option` is undefined behaviour of the reads and writes through pointers,
the `Unwind` inside is what leaves the Rust frame.
-/

namespace LlingrKafka.Wire

open FixedWidth Memory Utf8

/-- A handler's error: what `to_string` makes of it, and its destructor. -/
structure HandlerError where
  text : Unwind String
  drop : Unwind Unit
  /-- The panic of a text is unwinding when the destructor runs; a second one aborts the
  process. -/
  drop_of_panic : ∀ payload, text = .panic payload → drop = .ret ()

/-- An error with a text. -/
def HandlerError.ofText (text : String) : HandlerError := ⟨.ret text, .ret (), fun _ _ => rfl⟩

/-- `Handlers`, as the trampolines use it. -/
structure HandlerSet where
  topic : String
  process : Message → Unwind (Except HandlerError (BitVec 64))
  deadLetter : Option (Message → String → Unwind (Except HandlerError Unit))

/-- The caller's error buffer: `err_buf`, `err_cap` and `err_len_out`. -/
structure ErrOut where
  buf : Option Bytes
  cap : ℤ
  len : Option ℤ
  deriving DecidableEq, Repr

/-- The out-parameters of `process_trampoline`; `none` is a null pointer. -/
structure ProcessOut where
  traitsOut : Option ℤ
  err : ErrOut
  deriving DecidableEq, Repr

/-- `write_c_err`. -/
def writeCErr (out : ErrOut) (s : String) : Option ErrOut :=
  match out.buf, out.len with
  | some buf, some _ =>
      if out.cap ≤ 0 then some out
      else
        let n := floorBoundary (encode s) (min (encode s).length out.cap.toNat)
        if n ≤ buf.length then
          some { out with buf := some ((encode s).take n ++ buf.drop n), len := some n }
        else none
  | _, _ => some out

/-- `drop_panic_payload`: a payload whose own drop panics is leaked. -/
def dropPanicPayload (payload : PanicPayload) : Unwind Unit :=
  match payload.drop.catchUnwind with
  | .ok () => .ret ()
  | .error _nested => .ret ()

/-- What a call of the process handler comes to: the return code, the traits and the
text of the error, which is dropped behind it. -/
def processOutcome (result : Unwind (Except HandlerError (BitVec 64))) :
    Unwind (ℤ × BitVec 64 × Option String) :=
  result.bind fun
    | .ok traits => .ret (0, traits, none)
    | .error e => e.text.bind fun text => e.drop.map fun () => (1, 0, some text)

/-- What `process_trampoline` runs under `catch_unwind`. -/
def processCall (handlers : Option HandlerSet) (m : Heap) (args : RecordArgs) :
    Option (Unwind (ℤ × BitVec 64 × Option String)) :=
  match handlers with
  | none => some (.ret (-1, 0, none))
  | some h =>
      (borrowMessage m h.topic args).map fun msg => processOutcome (h.process msg)

/-- `process_trampoline`. -/
def processTrampoline (handlers : Option HandlerSet) (m : Heap) (args : RecordArgs)
    (out : ProcessOut) : Option (Unwind (ℤ × ProcessOut)) :=
  let cleared : ProcessOut := { out with err.len := out.err.len.map fun _ => 0 }
  (processCall handlers m args).bind fun result =>
    match result.catchUnwind with
    | .ok r =>
        let applied : ProcessOut :=
          if r.1 = 0 then { cleared with traitsOut := cleared.traitsOut.map fun _ => r.2.1.toInt }
          else cleared
        match r.2.2 with
        | some text => (writeCErr applied.err text).map fun err => .ret (r.1, { applied with err })
        | none => some (.ret (r.1, applied))
    | .error payload =>
        match dropPanicPayload payload with
        | .ret () =>
            (writeCErr cleared.err "panic in process callback").map fun err =>
              .ret (1, { cleared with err })
        | .panic escaped => some (.panic escaped)

/-- What the dead-letter handler makes of a message: the return code, 0 without a
handler. -/
def deadletterOutcome (handler : Option (Message → String → Unwind (Except HandlerError Unit)))
    (msg : Message) (error : String) : Unwind ℤ :=
  let result :=
    match handler with
    | some handle => handle msg error
    | none => .ret (.ok ())
  result.bind fun
    | .ok () => .ret 0
    | .error e => e.drop.map fun () => 1

/-- What `deadletter_trampoline` runs under `catch_unwind`. -/
def deadletterCall (handlers : Option HandlerSet) (m : Heap) (args : RecordArgs)
    (errorMsg : Address) (errorLen : ℤ) : Option (Unwind ℤ) :=
  match handlers with
  | none => some (.ret (-1))
  | some h =>
      (borrowBytes m (some errorMsg) errorLen).bind fun error =>
        (borrowMessage m h.topic args).map fun msg =>
          deadletterOutcome h.deadLetter msg (decodeLossy error)

/-- `deadletter_trampoline`. -/
def deadletterTrampoline (handlers : Option HandlerSet) (m : Heap) (args : RecordArgs)
    (errorMsg : Address) (errorLen : ℤ) : Option (Unwind ℤ) :=
  (deadletterCall handlers m args errorMsg errorLen).map fun result =>
    match result.catchUnwind with
    | .ok rc => .ret rc
    | .error payload => (dropPanicPayload payload).map fun () => 1

end LlingrKafka.Wire
