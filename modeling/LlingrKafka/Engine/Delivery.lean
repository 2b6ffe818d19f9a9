import LlingrKafka.Engine.Build
import LlingrKafka.Wire.Process

/-!
# Messages through a built engine

Calls of `Builder::build` interleaved with the engine working through messages.  Of
the engine only its contract is modelled: it calls `WriteDeadLetter` for a message when
its `ProcessMessage` returned an error, and completes an offset when one of the two
returned nil.  A move of the engine names the call of `build` it runs under, which must
have returned Ok.

Both callbacks go to the trampolines, which read the handler set behind `HANDLERS`.
What the user's handlers come to is a choice of each move.  A call the process does not
survive has no successor state.
-/

namespace LlingrKafka.Engine

open Bridge Memory Utf8 Wire

variable {ι κ T : Type*}

/-- What the user's handlers come to, when they are called. -/
structure UserCalls where
  process : Unwind (Except HandlerError (BitVec 64))
  handle : Unwind (Except HandlerError Unit)

/-- `handlers()` of `src/engine.rs`: the set behind the published pointer. -/
def publishedSet (g : EngineShared ι) (user : UserCalls) : Option HandlerSet :=
  g.handlers.bind fun owner =>
    (g.boxes owner).map fun box => {
      topic := box.handlers.topic
      process := fun _ => user.process
      deadLetter := if box.handlers.deadLetter then some fun _ _ => user.handle else none }

/-- `ProcessMessage` of the consumer: `makeProcessMessage` over the registered callbacks. -/
def processMessage (g : EngineShared ι) (valueOf : T → Option Bytes) (metaOf : T → RecordMeta)
    (user : UserCalls) (m : Heap) (msg : Envelope T) : Option ProcessReturn :=
  makeProcessMessage g.registration.loadCallbacks (publishedSet g user) valueOf metaOf m msg

/-- `WriteDeadLetter` of the consumer. -/
def writeDeadLetter (g : EngineShared ι) (valueOf : T → Option Bytes) (metaOf : T → RecordMeta)
    (user : UserCalls) (m : Heap) (msg : Envelope T) (reason : Option Bytes) :
    Option (Heap × Option Bytes) :=
  makeWriteDeadLetter g.registration.loadCallbacks (publishedSet g user) valueOf metaOf m msg reason

/-- The calls of `build`, memory, and for each message what the two calls returned, the
traits applied to it and whether its offset is completed. -/
structure DeliveryState (ι κ : Type*) where
  build : BuildCfg ι
  heap : Heap
  processed : κ → Option (Option Bytes)
  deadLettered : κ → Option (Option Bytes)
  traits : κ → BitVec 64
  completed : κ → Bool

/-- One move: of a call of `build`, or of the engine under the call `t`. -/
inductive DeliveryMove (ι κ : Type*)
  | build (t : ι) (move : BuildMove)
  | process (t : ι) (k : κ) (user : UserCalls)
  | writeDeadLetter (t : ι) (k : κ) (user : UserCalls)
  | complete (k : κ)

/-- The call `t` of `build` returned Ok. -/
def Built (c : BuildCfg ι) (t : ι) : Prop := (c.threads t).result = some (.ok ())

instance (c : BuildCfg ι) (t : ι) : Decidable (Built c t) :=
  inferInstanceAs (Decidable (_ = _))

/-- One step.  A reason is the error its `ProcessMessage` returned. -/
def deliveryStep [DecidableEq ι] [DecidableEq κ] (valueOf : T → Option Bytes)
    (metaOf : T → RecordMeta) (msgs : κ → Envelope T) (s : DeliveryState ι κ) :
    DeliveryMove ι κ → Option (DeliveryState ι κ)
  | .build t move => ((buildMachine ι).next s.build (t, move)).map fun c => { s with build := c }
  | .process t k user =>
      if Built s.build t ∧ s.processed k = none then
        (processMessage s.build.shared valueOf metaOf user s.heap (msgs k)).map fun ret =>
          { s with
            heap := ret.heap
            processed := Function.update s.processed k (some ret.err)
            traits := Function.update s.traits k (ret.traits.getD 0) }
      else none
  | .writeDeadLetter t k user =>
      match s.processed k, s.deadLettered k with
      | some (some reason), none =>
          if Built s.build t then
            (writeDeadLetter s.build.shared valueOf metaOf user s.heap (msgs k) (some reason)).map
              fun ret =>
                { s with
                  heap := ret.1
                  deadLettered := Function.update s.deadLettered k (some ret.2) }
          else none
      | _, _ => none
  | .complete k =>
      if s.processed k = some none ∨ s.deadLettered k = some none then
        some { s with completed := Function.update s.completed k true }
      else none

/-- Builds and messages, from a fresh process. -/
def deliveryMachine [DecidableEq ι] [DecidableEq κ] (valueOf : T → Option Bytes)
    (metaOf : T → RecordMeta) (msgs : κ → Envelope T) :
    Machine (DeliveryState ι κ) (DeliveryMove ι κ) where
  start := ⟨(buildMachine ι).start, ⟨[]⟩, fun _ => none, fun _ => none, fun _ => 0, fun _ => false⟩
  next := deliveryStep valueOf metaOf msgs

end LlingrKafka.Engine
