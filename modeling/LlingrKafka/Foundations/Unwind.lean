import Mathlib.Tactic.Common

/-!
# Panics

A computation that may unwind with a panic payload, catching the unwind, and the edge
of an `extern "C"` function, which no unwind may cross.  Dropping a payload runs its
destructor, which may panic in turn with a payload of its own.
-/

/-- A panic payload, by what its destructor does. -/
inductive PanicPayload
  | plain
  | dropPanics (nested : PanicPayload)
  deriving DecidableEq, Repr

/-- A computation that returns, or panics. -/
inductive Unwind (α : Type*)
  | ret (a : α)
  | panic (payload : PanicPayload)
  deriving DecidableEq, Repr

namespace Unwind

variable {α β : Type*}

def bind (x : Unwind α) (f : α → Unwind β) : Unwind β :=
  match x with
  | .ret a => f a
  | .panic payload => .panic payload

def map (f : α → β) (x : Unwind α) : Unwind β := x.bind fun a => .ret (f a)

/-- `catch_unwind`. -/
def catchUnwind : Unwind α → Except PanicPayload α
  | .ret a => .ok a
  | .panic payload => .error payload

/-- Leaving an `extern "C"` function: an unwind aborts the process. -/
def externC : Unwind α → Option α
  | .ret a => some a
  | .panic _ => none

@[simp] theorem bind_ret (a : α) (f : α → Unwind β) : (ret a).bind f = f a := rfl

@[simp] theorem bind_panic (payload : PanicPayload) (f : α → Unwind β) :
    (panic payload).bind f = panic payload := rfl

@[simp] theorem map_ret (f : α → β) (a : α) : (ret a).map f = ret (f a) := rfl

@[simp] theorem map_panic (f : α → β) (payload : PanicPayload) :
    (panic payload).map f = panic payload := rfl

@[simp] theorem catchUnwind_ret (a : α) : (ret a).catchUnwind = .ok a := rfl

@[simp] theorem catchUnwind_panic (payload : PanicPayload) :
    (panic payload : Unwind α).catchUnwind = .error payload := rfl

@[simp] theorem externC_ret (a : α) : (ret a).externC = some a := rfl

end Unwind

/-- Dropping a payload. -/
def PanicPayload.drop : PanicPayload → Unwind Unit
  | .plain => .ret ()
  | .dropPanics nested => .panic nested
