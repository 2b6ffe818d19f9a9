import LlingrKafka.Bridge.Callbacks
import LlingrKafka.Foundations.Threads
import Mathlib.Data.Int.Notation
import Mathlib.Order.Nat
import Mathlib.Tactic.Common

/-!
# `Builder::build`

The atomic steps of `Builder::build` (`src/engine.rs`), as the code of one thread
of a `Program`: any number of calls build concurrently, each with its own
configuration.

A handler set is named by the call that boxes it, so `HANDLERS` holds a call or
is null, and the heap maps each call to its box.  A box keeps the number of times
it was freed; dropping it also drops the scrape endpoint it holds.

What lies outside the crate is a choice of the label: the ABI version the linked
library reports, whether the configuration has an interior NUL byte, whether the
scrape endpoint binds, and what `llingr_init` returns.  A call of `llingr_init`
that returns 0 seals the registration and any other leaves it open, which is what
`Bridge.llingrInit_singleShot` proves of it.
-/

namespace LlingrKafka.Engine

open Bridge

/-- `Mode` of `src/metrics.rs`. -/
inductive MetricsMode
  | serve
  | registry
  deriving DecidableEq, Repr

/-- What a `Builder` is configured with, as far as `build` branches on it. -/
structure Attempt where
  topic : String
  deferredError : Option String
  metrics : Option MetricsMode
  shutdown : Bool
  deriving DecidableEq, Repr

/-- `RealisedMetrics`: whether a scrape endpoint was bound. -/
structure RealisedMetrics where
  exporter : Bool
  deriving DecidableEq, Repr

/-- `Handlers`: the topic, and which of the optional handlers are present. -/
structure Handlers where
  topic : String
  deadLetter : Bool
  metrics : Bool
  shutdown : Bool
  log : Bool
  bandwidth : Bool
  prometheusExporter : Bool
  deriving DecidableEq, Repr

/-- A boxed handler set: how often it was freed, and whether the endpoint it holds
is still serving. -/
structure HandlerBox where
  handlers : Handlers
  frees : ℕ
  serving : Bool
  deriving DecidableEq, Repr

/-- The box after it is dropped. -/
def HandlerBox.drop (box : HandlerBox) : HandlerBox :=
  { box with frees := box.frees + 1, serving := false }

/-- The set `build` boxes. -/
def Attempt.handlers (attempt : Attempt) (realised : Option RealisedMetrics) : Handlers where
  topic := attempt.topic
  deadLetter := true
  metrics := realised.isSome
  shutdown := attempt.shutdown
  log := true
  bandwidth := realised.isSome
  prometheusExporter := realised.any (·.exporter)

/-- `LlingrError`. -/
structure LlingrError where
  code : ℤ
  message : String
  deriving DecidableEq, Repr

/-- `LLINGR_ABI_VERSION`. -/
def llingrAbiVersion : ℤ := 1

/-- `abi_mismatch_error`. -/
def abiMismatchError (expected reported : ℤ) : LlingrError where
  code := -1
  message := "llingr ABI mismatch: crate expects " ++ toString expected ++ ", library reports " ++
    toString reported ++ " (rebuild libllingr to match this crate)"

/-- What `build` returns. -/
abbrev BuildResult := Except LlingrError Unit

instance : DecidableEq BuildResult
  | .ok _, .ok _ => .isTrue rfl
  | .error e, .error e' =>
      if h : e = e' then .isTrue (by rw [h])
      else .isFalse (by intro heq; cases heq; exact h rfl)
  | .ok _, .error _ => .isFalse (by intro heq; cases heq)
  | .error _, .ok _ => .isFalse (by intro heq; cases heq)

/-- Where a call of `build` stands. -/
inductive BuildPc (ι : Type*)
  | deferred
  | abi
  | lock
  | check
  | config
  | realise
  | box (realised : Option RealisedMetrics)
  | swap (realised : Option RealisedMetrics)
  | restore (previous : ι)
  | refuse
  | register (realised : Option RealisedMetrics)
  | init
  | rollback (err : LlingrError)
  | dropPublished (published : Option ι) (err : LlingrError)
  | setInited
  | unlock (result : BuildResult)
  | returned (result : BuildResult)
  deriving DecidableEq

/-- A thread, and the configuration of the build it runs. -/
inductive BuildAct (ι : Type*)
  | idle
  | call (attempt : Attempt) (pc : BuildPc ι)
  deriving DecidableEq

/-- One move of one thread. -/
inductive BuildMove
  | call (attempt : Attempt)
  | step
  | abi (reported : ℤ)
  | converted (interiorNul : Bool)
  | bound (failure : Option String)
  | initReturns (rc : ℤ) (text : String)
  deriving DecidableEq, Repr

/-- The memory the calls share: `INIT_LOCK` with its holder, `HANDLERS`, the heap,
and the bridge's callback registration. -/
structure EngineShared (ι : Type*) where
  initLock : Option ι
  inited : Bool
  handlers : Option ι
  boxes : ι → Option HandlerBox
  registration : Registration

variable {ι : Type*}

/-- The registration calls of `build`. -/
def registerTrampolines (bandwidthEnabled : Bool) (reg : Registration) : Registration :=
  let reg := llingrOnProcess reg
  let reg := llingrOnDeadletter reg
  let reg := llingrOnMetrics reg
  let reg := llingrOnShutdown reg
  let reg := llingrOnLog reg
  if bandwidthEnabled then llingrOnBandwidth reg else reg

/-- `Box::into_raw(Box::new(..))`. -/
def storeBox [DecidableEq ι] (g : EngineShared ι) (owner : ι) (box : HandlerBox) :
    EngineShared ι :=
  { g with boxes := Function.update g.boxes owner (some box) }

/-- `drop(Box::from_raw(ptr))`. -/
def dropBox [DecidableEq ι] (g : EngineShared ι) (owner : ι) : EngineShared ι :=
  { g with boxes := Function.update g.boxes owner ((g.boxes owner).map HandlerBox.drop) }

/-- `Builder::build`. -/
def build [DecidableEq ι] (t : ι) (attempt : Attempt) (g : EngineShared ι) :
    BuildPc ι → BuildMove → Option (EngineShared ι × BuildPc ι)
  | .deferred, .step =>
      match attempt.deferredError with
      | some message => some (g, .returned (.error ⟨-5, message⟩))
      | none => some (g, .abi)
  | .abi, .abi reported =>
      if reported ≠ llingrAbiVersion then
        some (g, .returned (.error (abiMismatchError llingrAbiVersion reported)))
      else some (g, .lock)
  | .lock, .step =>
      match g.initLock with
      | none => some ({ g with initLock := some t }, .check)
      | some _ => none
  | .check, .step =>
      if g.inited then some (g, .unlock (.error ⟨-1, "only one llingr instance per process"⟩))
      else some (g, .config)
  | .config, .converted interiorNul =>
      if interiorNul then
        some (g, .unlock (.error ⟨-2, "configuration contains an interior NUL byte"⟩))
      else some (g, .realise)
  | .realise, .step =>
      match attempt.metrics with
      | none => some (g, .box none)
      | some .registry => some (g, .box (some ⟨false⟩))
      | some .serve => none
  | .realise, .bound failure =>
      match attempt.metrics, failure with
      | some .serve, none => some (g, .box (some ⟨true⟩))
      | some .serve, some text => some (g, .unlock (.error ⟨-6, text⟩))
      | _, _ => none
  | .box realised, .step =>
      some (storeBox g t ⟨attempt.handlers realised, 0, realised.any (·.exporter)⟩, .swap realised)
  | .swap realised, .step =>
      -- HANDLERS.swap(handler_ptr): the previous pointer decides
      match g.handlers with
      | none => some ({ g with handlers := some t }, .register realised)
      | some previous => some ({ g with handlers := some t }, .restore previous)
  | .restore previous, .step => some ({ g with handlers := some previous }, .refuse)
  | .refuse, .step =>
      some (dropBox g t, .unlock (.error ⟨-1, "handler set already published"⟩))
  | .register realised, .step =>
      some ({ g with registration := registerTrampolines realised.isSome g.registration }, .init)
  | .init, .initReturns rc text =>
      if rc ≠ 0 then some (g, .rollback ⟨rc, text⟩)
      else some ({ g with registration := g.registration.sealCallbacks }, .setInited)
  | .rollback err, .step => some ({ g with handlers := none }, .dropPublished g.handlers err)
  | .dropPublished published err, .step =>
      match published with
      | none => some (g, .unlock (.error err))
      | some owner => some (dropBox g owner, .unlock (.error err))
  | .setInited, .step => some ({ g with inited := true }, .unlock (.ok ()))
  | .unlock result, .step => some ({ g with initLock := none }, .returned result)
  | _, _ => none

/-- One move of thread `t`. -/
def buildStep [DecidableEq ι] (t : ι) (g : EngineShared ι) :
    BuildAct ι → BuildMove → Option (EngineShared ι × BuildAct ι)
  | .idle, .call attempt => some (g, .call attempt .deferred)
  | .idle, _ => none
  | .call attempt pc, move => (build t attempt g pc move).map fun r => (r.1, .call attempt r.2)

/-- Concurrent calls of `build`. -/
def buildProgram (ι : Type*) [DecidableEq ι] :
    Program ι (EngineShared ι) (BuildAct ι) BuildMove where
  shared := ⟨none, false, none, fun _ => none, .start⟩
  fresh := .idle
  step := buildStep

abbrev BuildCfg (ι : Type*) := Config ι (EngineShared ι) (BuildAct ι)

abbrev buildMachine (ι : Type*) [DecidableEq ι] : Machine (BuildCfg ι) (ι × BuildMove) :=
  (buildProgram ι).machine

/-- What a thread's call of `build` has returned. -/
def BuildAct.result : BuildAct ι → Option BuildResult
  | .call _ (.returned result) => some result
  | _ => none

end LlingrKafka.Engine
