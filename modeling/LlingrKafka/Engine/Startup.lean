import LlingrKafka.Bridge.SingleShot
import LlingrKafka.Engine.Publication
import LlingrKafka.Wire.InitError

/-!
# `Builder::build` with `llingr_init` inside

`Engine.build` leaves what `llingr_init` returns to its label, and `Bridge.llingrInit` has
callers of any kind.  Here the two are one program: a call of `build` that has registered its
trampolines enters `llingr_init` and takes its steps, on the registration they share, and goes
on with the return code and with the text that the error buffer brought back.

A thread keeps the frame of its `llingr_init` after the return, for the context it created.
-/

namespace LlingrKafka.Engine

open Bridge

/-- The memory of both halves; the bridge's registration is the one of `engine`. -/
structure StartupShared (ι : Type*) where
  engine : EngineShared ι
  state : BridgeState ι
  initMu : Option ι

/-- A call of `build`, and the call of `llingr_init` it has made. -/
inductive StartupAct (ι : Type*)
  | idle
  | call (attempt : Attempt) (pc : BuildPc ι) (frame : Option InitFrame)

/-- One move of one thread. -/
inductive StartupMove
  | build (move : BuildMove)
  | init (move : InitMove)
  | ret

variable {ι : Type*}

namespace StartupShared

/-- What `llingr_init` reads and writes. -/
def bridge (g : StartupShared ι) : InitShared ι := ⟨g.state, g.initMu, g.engine.registration⟩

/-- What it leaves. -/
def setBridge (g : StartupShared ι) (b : InitShared ι) : StartupShared ι where
  engine := { g.engine with registration := b.registration }
  state := b.state
  initMu := b.initMu

end StartupShared

/-- What `build` goes on with when `llingr_init` has returned `rc` and `text` is what it wrote;
nothing if reading the error buffer panics. -/
def afterInit (rc : ℤ) (text : Option String) : Option (BuildPc ι) :=
  if rc ≠ 0 then
    (Wire.buildFailureText rc (text.map Utf8.encode)).map fun message => .rollback ⟨rc, message⟩
  else some .setInited

/-- One move of thread `t`. -/
def startupStep [DecidableEq ι] (t : ι) (g : StartupShared ι) :
    StartupAct ι → StartupMove → Option (StartupShared ι × StartupAct ι)
  | .idle, .build (.call attempt) => some (g, .call attempt .deferred none)
  | .call attempt .init none, .init .call => some (g, .call attempt .init (some .entered))
  | .call attempt .init (some frame), .init move =>
      (llingrInit t g.bridge frame move).map fun r =>
        (g.setBridge r.1, .call attempt .init (some r.2))
  | .call attempt .init (some frame), .ret =>
      match frame.pc with
      | .returned rc =>
          (afterInit rc frame.text).map fun pc => (g, .call attempt pc (some frame))
      | _ => none
  | .call _ .init _, _ => none
  | .call attempt pc frame, .build move =>
      (build t attempt g.engine pc move).map fun r =>
        ({ g with engine := r.1 }, .call attempt r.2 frame)
  | _, _ => none

/-- Concurrent calls of `build`, down to the bridge. -/
def startupProgram (ι : Type*) [DecidableEq ι] :
    Program ι (StartupShared ι) (StartupAct ι) StartupMove where
  shared := ⟨(buildProgram ι).shared, .zero, none⟩
  fresh := .idle
  step := startupStep

abbrev StartupCfg (ι : Type*) := Config ι (StartupShared ι) (StartupAct ι)

abbrev startupMachine (ι : Type*) [DecidableEq ι] : Machine (StartupCfg ι) (ι × StartupMove) :=
  (startupProgram ι).machine

namespace StartupAct

/-- The call of `build`. -/
def build : StartupAct ι → BuildAct ι
  | idle => .idle
  | call attempt pc _ => .call attempt pc

/-- The call of `llingr_init`. -/
def init : StartupAct ι → InitAct
  | call _ _ (some frame) => .call frame
  | _ => .idle

end StartupAct

/-! ## The steps -/

/-- The steps of the program. -/
inductive StartupStep [DecidableEq ι] (t : ι) (g : StartupShared ι) :
    StartupAct ι → StartupShared ι → StartupAct ι → Prop
  | call (attempt : Attempt) : StartupStep t g .idle g (.call attempt .deferred none)
  | build {attempt : Attempt} {pc pc' : BuildPc ι} {frame : Option InitFrame}
      {engine : EngineShared ι} (hpc : pc ≠ .init)
      (h : BuildStep t attempt g.engine pc engine pc') :
      StartupStep t g (.call attempt pc frame) { g with engine } (.call attempt pc' frame)
  | enter (attempt : Attempt) :
      StartupStep t g (.call attempt .init none) g (.call attempt .init (some .entered))
  | init {attempt : Attempt} {frame frame' : InitFrame} {b : InitShared ι}
      (h : InitStep t g.bridge frame b frame') :
      StartupStep t g (.call attempt .init (some frame)) (g.setBridge b)
        (.call attempt .init (some frame'))
  | failed {attempt : Attempt} {frame : InitFrame} {rc : ℤ} (hpc : frame.pc = .returned rc)
      (hrc : rc ≠ 0) (message : String)
      (hmessage : Wire.buildFailureText rc (frame.text.map Utf8.encode) = some message) :
      StartupStep t g (.call attempt .init (some frame)) g
        (.call attempt (.rollback ⟨rc, message⟩) (some frame))
  | initialised {attempt : Attempt} {frame : InitFrame} (hpc : frame.pc = .returned 0) :
      StartupStep t g (.call attempt .init (some frame)) g (.call attempt .setInited (some frame))

theorem startupStep_cases [DecidableEq ι] {t : ι} {g g' : StartupShared ι} {l l' : StartupAct ι}
    {move : StartupMove} (h : startupStep t g l move = some (g', l')) :
    StartupStep t g l g' l' := by
  unfold startupStep at h
  split at h
  · obtain ⟨rfl, rfl⟩ := Prod.mk.inj (Option.some_inj.mp h)
    exact .call _
  · obtain ⟨rfl, rfl⟩ := Prod.mk.inj (Option.some_inj.mp h)
    exact .enter _
  · obtain ⟨⟨b, frame'⟩, hstep, heq⟩ := Option.map_eq_some_iff.mp h
    obtain ⟨rfl, rfl⟩ := Prod.mk.inj heq
    exact .init (llingrInit_cases hstep)
  · split at h
    · rename_i rc hpc
      obtain ⟨pc, hpc', heq⟩ := Option.map_eq_some_iff.mp h
      obtain ⟨rfl, rfl⟩ := Prod.mk.inj heq
      unfold afterInit at hpc'
      split_ifs at hpc' with hrc
      · obtain ⟨message, hmessage, rfl⟩ := Option.map_eq_some_iff.mp hpc'
        exact .failed hpc hrc message hmessage
      · obtain rfl := not_not.mp hrc
        obtain rfl := Option.some_inj.mp hpc'
        exact .initialised hpc
    · cases h
  · cases h
  · rename_i attempt pc frame move hpc
    obtain ⟨⟨engine, pc'⟩, hstep, heq⟩ := Option.map_eq_some_iff.mp h
    obtain ⟨rfl, rfl⟩ := Prod.mk.inj heq
    exact .build (fun hinit => hpc hinit) (build_cases hstep)
  · cases h

end LlingrKafka.Engine
