import LlingrKafka.Lifecycle.RunDone

/-!
# The stop gate

`stopGateOpen` starts closed, `llingr_run` opens it, and the stop whose
compare-and-swap closes it drives `Shutdown`.  This file proves what the gate
guarantees when there is one call of `llingr_run` and no emergency exit, under
every interleaving with any number of stops, including the ones a shutdown
handler makes on its own goroutine.

The invariant that carries it (`GateInv`) says that the gate is open only while
nobody has won it, and that the winner's progress is recorded in the history: no
`Shutdown` before it calls, one afterwards, and no cancellation of the context
until that call has ended.
-/

namespace LlingrKafka.Lifecycle

open Bridge

variable {ι : Type*}

/-- One call of `llingr_run`, and no emergency exit. -/
def graceful (g : Shared ι) : Move → Bool
  | .call .run => g.hist.runCalled.isNone
  | .call .emergencyStop => false
  | .callback (some _) => false
  | _ => true

/-- The guard of a graceful run. -/
def Graceful (_t : ι) (g : Shared ι) (_l : Act) (move : Move) : Prop := graceful g move = true

instance (t : ι) (g : Shared ι) (l : Act) (move : Move) : Decidable (Graceful t g l move) :=
  inferInstanceAs (Decidable (graceful g move = true))

/-- Every move of the labels is graceful. -/
def GracefulRun [DecidableEq ι] (shutdownFn : Bool) (labels : List (ι × Move)) : Prop :=
  (machine ι shutdownFn).Guarded (Program.guardOn Graceful) (machine ι shutdownFn).start labels

instance [DecidableEq ι] (shutdownFn : Bool) (labels : List (ι × Move)) :
    Decidable (GracefulRun shutdownFn labels) :=
  inferInstanceAs (Decidable (Machine.Guarded _ _ _ _))

structure GateInv (g : Shared ι) : Prop where
  opened : g.state.stopGateOpen = true → g.hist.winner = none ∧ g.hist.gateOpened = true
  won : g.hist.winner.isSome = true → g.hist.gateOpened = true
  unwon : g.hist.winner = none → g.hist.shutdownCalls = 0 ∧ g.hist.shutdownFinished = false
  calls : g.hist.shutdownCalls ≤ 1
  cancelled : g.ctxCancelled = true → g.hist.shutdownFinished = true
  runner : g.hist.runCalled = none → g.hist.gateOpened = false

/-- The winner is `t`, and its `Shutdown` was called `calls` times and has, or has
not, ended. -/
def Winner (t : ι) (g : Shared ι) (calls : ℕ) (finished : Bool) : Prop :=
  g.hist.winner = some t ∧ g.hist.shutdownCalls = calls ∧ g.hist.shutdownFinished = finished

/-- A stop frame: past its compare-and-swap it is the winner. -/
def StopGateOwn (t : ι) (g : Shared ι) : StopPc → Prop
  | .load | .cas _ | .returned _ => True
  | .shutdown _ => Winner t g 0 false
  | .inShutdown _ => Winner t g 1 false
  | .cancel _ | .signal _ => Winner t g 1 true

/-- The thread's part in the gate protocol of a graceful run. -/
def ActGate (t : ι) (g : Shared ι) : Act → Prop
  | .run .load | .run .openGate => g.hist.runCalled = some t ∧ g.hist.gateOpened = false
  | .stop pc => StopGateOwn t g pc
  | .callback reason pc => reason = none ∧
      match pc with
      | .inHandler (some pc) => StopGateOwn t g pc
      | .cleanupLoad | .inCleanup _ | .cleanupCancel _ => False
      | _ => True
  | _ => True

/-- What other threads rely on: what the winner, or the one `llingr_run` that has
not opened the gate yet, knows of the history. -/
structure GateLe (t : ι) (g g' : Shared ι) : Prop where
  winner : ∀ u, u ≠ t → g.hist.winner = some u → g'.hist.winner = some u ∧
    g'.hist.shutdownCalls = g.hist.shutdownCalls ∧
    g'.hist.shutdownFinished = g.hist.shutdownFinished
  runner : ∀ u, u ≠ t → g.hist.runCalled = some u → g.hist.gateOpened = false →
    g'.hist.runCalled = some u ∧ g'.hist.gateOpened = false

theorem GateLe.of_hist_eq {t : ι} {g g' : Shared ι} (hwinner : g'.hist.winner = g.hist.winner)
    (hcalls : g'.hist.shutdownCalls = g.hist.shutdownCalls)
    (hfinished : g'.hist.shutdownFinished = g.hist.shutdownFinished)
    (hrunner : g'.hist.runCalled = g.hist.runCalled)
    (hopened : g'.hist.gateOpened = g.hist.gateOpened) : GateLe t g g' where
  winner := by intro u _ hu; exact ⟨hwinner.trans hu, hcalls, hfinished⟩
  runner := by intro u _ hu hclosed; exact ⟨hrunner.trans hu, hopened.trans hclosed⟩

theorem GateLe.refl {t : ι} (g : Shared ι) : GateLe t g g := .of_hist_eq rfl rfl rfl rfl rfl

/-- A step of the winner disturbs nobody: there is no second winner. -/
theorem GateLe.of_winner {t : ι} {g g' : Shared ι} (hwinner : g.hist.winner = some t)
    (hrunner : g'.hist.runCalled = g.hist.runCalled)
    (hopened : g'.hist.gateOpened = g.hist.gateOpened) : GateLe t g g' where
  winner := by
    intro u hu hother
    exact absurd (Program.eq_of_owner hwinner hother) hu
  runner := by intro u _ hu hclosed; exact ⟨hrunner.trans hu, hopened.trans hclosed⟩

theorem gateInv_start (shutdownFn : Bool) : GateInv (.start shutdownFn : Shared ι) := by
  constructor <;> simp [Shared.start, History.start, BridgeState.zero]

/-- `signalRunDone` does not touch the gate. -/
theorem SignalStep.gate {t : ι} {state state' : BridgeState ι} {pc pc' : SignalPc}
    (h : SignalStep t state pc state' pc') : state'.stopGateOpen = state.stopGateOpen := by
  cases h <;> rfl

/-- The gate invariant reads the gate and the history only. -/
theorem GateInv.of_state {g : Shared ι} {state' : BridgeState ι} (hinv : GateInv g)
    (hgate : state'.stopGateOpen = g.state.stopGateOpen) : GateInv { g with state := state' } :=
  { hinv with opened := fun hopen => hinv.opened (hgate.symm.trans hopen) }

/-- A step of a stop frame in the gate protocol. -/
theorem gate_stop_step {t : ι} {g g' : Shared ι} {pc pc' : StopPc} (hinv : GateInv g)
    (hown : StopGateOwn t g pc) (h : StopStep t g pc g' pc') :
    GateInv g' ∧ StopGateOwn t g' pc' ∧ GateLe t g g' := by
  cases h with
  | loadNil hconsumer => exact ⟨hinv, trivial, .refl g⟩
  | load hconsumer => exact ⟨hinv, trivial, .refl g⟩
  -- the open gate has had no winner, so this one is the first
  | win cancel hgate =>
      obtain ⟨hnone, hopened⟩ := hinv.opened hgate
      obtain ⟨hcalls, hfinished⟩ := hinv.unwon hnone
      refine ⟨⟨?_, fun _ => hopened, ?_, hinv.calls, hinv.cancelled, hinv.runner⟩,
        ⟨rfl, hcalls, hfinished⟩, ⟨?_, fun u _ hu hclosed => ⟨hu, hclosed⟩⟩⟩
      · intro hopen
        cases hopen
      · intro hwinner
        cases hwinner
      · intro u _ hwinner
        rw [hnone] at hwinner
        cases hwinner
  | lose cancel hgate => exact ⟨hinv, trivial, .refl g⟩
  -- only the winner gets here, and only once
  | callShutdown cancel =>
      obtain ⟨hwinner, hcalls, hfinished⟩ := hown
      refine ⟨{ hinv with unwon := ?_, calls := ?_ }, ⟨hwinner, ?_, hfinished⟩,
        .of_winner hwinner rfl rfl⟩
      · intro hnone
        simp [hwinner] at hnone
      · simp [hcalls]
      · simp [hcalls]
  | shutdownEnds cancel =>
      obtain ⟨hwinner, hcalls, hfinished⟩ := hown
      refine ⟨{ hinv with unwon := ?_, cancelled := fun _ => rfl }, ⟨hwinner, hcalls, rfl⟩,
        .of_winner hwinner rfl rfl⟩
      intro hnone
      simp [hwinner] at hnone
  | cancel cancel =>
      obtain ⟨hwinner, hcalls, hfinished⟩ := hown
      exact ⟨{ hinv with cancelled := fun _ => hfinished }, ⟨hwinner, hcalls, hfinished⟩,
        .of_winner hwinner rfl rfl⟩
  | signal hsignal => exact ⟨hinv.of_state hsignal.gate, hown, .of_winner hown.1 rfl rfl⟩
  | ret => exact ⟨{ hinv with }, trivial, .of_winner hown.1 rfl rfl⟩

/-- A move of a thread in the gate protocol. -/
theorem gate_act_step {t : ι} {g g' : Shared ι} {l l' : Act} {move : Move} (hinv : GateInv g)
    (hown : ActGate t g l) (hgraceful : Graceful t g l move) (h : ActStep t g l move g' l') :
    GateInv g' ∧ ActGate t g' l' ∧ GateLe t g g' := by
  cases h with
  | init hnone => exact ⟨hinv.of_state rfl, trivial, .of_hist_eq rfl rfl rfl rfl rfl⟩
  -- the one call of `llingr_run`: nobody has opened the gate before it
  | enterRun =>
      have hnone : g.hist.runCalled = none := by simpa [Graceful, graceful] using hgraceful
      have hclosed := hinv.runner hnone
      refine ⟨{ hinv with runner := ?_ }, ⟨rfl, hclosed⟩, ⟨fun u _ hu => ⟨hu, rfl, rfl⟩, ?_⟩⟩
      · intro h
        cases h
      · intro u _ hu
        rw [hnone] at hu
        cases hu
  | enterStop => exact ⟨hinv, trivial, .refl g⟩
  | enterEmergency => simp [Graceful, graceful] at hgraceful
  | enterCallback reason hinit hexit =>
      cases reason with
      | none => exact ⟨{ hinv with }, ⟨rfl, trivial⟩, .of_hist_eq rfl rfl rfl rfl rfl⟩
      | some text => simp [Graceful, graceful] at hgraceful
  | run hrun =>
      cases hrun with
      | loadNil hconsumer => exact ⟨hinv, trivial, .refl g⟩
      | load hconsumer => exact ⟨hinv, hown, .refl g⟩
      -- a winner would have won an open gate, and the gate was never open
      | openGate =>
          obtain ⟨hrunner, hclosed⟩ := hown
          have hnone : g.hist.winner = none := by
            rcases hwinner : g.hist.winner with _ | u
            · rfl
            · have := hinv.won (by simp [hwinner])
              simp [hclosed] at this
          refine ⟨⟨fun _ => ⟨hnone, rfl⟩, fun _ => rfl, hinv.unwon, hinv.calls, hinv.cancelled, ?_⟩,
            trivial, ⟨fun u _ hu => ⟨hu, rfl, rfl⟩, ?_⟩⟩
          · intro h
            rw [hrunner] at h
            cases h
          · intro u hu hother
            exact absurd (Program.eq_of_owner hrunner hother) hu
      | unpark hclosed => exact ⟨{ hinv with }, trivial, .of_hist_eq rfl rfl rfl rfl rfl⟩
      | _ => exact ⟨hinv, trivial, .refl g⟩
  | stop hstop => exact gate_stop_step hinv hown hstop
  | emergency pc pc' move => exact ⟨hinv, trivial, .refl g⟩
  | callback hcallback =>
      obtain ⟨rfl, hpc⟩ := hown
      cases hcallback with
      | storeGate =>
          refine ⟨{ hinv with opened := ?_ }, ⟨rfl, trivial⟩, .of_hist_eq rfl rfl rfl rfl rfl⟩
          intro h
          cases h
      | callHandler hfn => exact ⟨hinv, ⟨rfl, trivial⟩, .refl g⟩
      | noHandler hfn => exact ⟨{ hinv with }, ⟨rfl, trivial⟩, .of_hist_eq rfl rfl rfl rfl rfl⟩
      | handlerStops => exact ⟨hinv, ⟨rfl, trivial⟩, .refl g⟩
      | handlerReturns => exact ⟨{ hinv with }, ⟨rfl, trivial⟩, .of_hist_eq rfl rfl rfl rfl rfl⟩
      | resume result => exact ⟨hinv, ⟨rfl, trivial⟩, .refl g⟩
      | nested hstop =>
          obtain ⟨hinv', hown', hle⟩ := gate_stop_step hinv hpc hstop
          exact ⟨hinv', ⟨rfl, hown'⟩, hle⟩
      | noCleanup hcleanup => exact hpc.elim
      | callCleanup hcleanup => exact hpc.elim
      | cleanupEnds cancel => exact hpc.elim
      | cleanupCancel cancel => exact hpc.elim
      | signal hsignal =>
          exact ⟨hinv.of_state hsignal.gate, ⟨rfl, trivial⟩, .of_hist_eq rfl rfl rfl rfl rfl⟩
      | ret => exact ⟨{ hinv with }, ⟨rfl, trivial⟩, .of_hist_eq rfl rfl rfl rfl rfl⟩

theorem StopGateOwn.mono {t u : ι} {g g' : Shared ι} {pc : StopPc} (hu : u ≠ t)
    (hle : GateLe t g g') (h : StopGateOwn u g pc) : StopGateOwn u g' pc := by
  have key : ∀ {calls finished}, Winner u g calls finished → Winner u g' calls finished := by
    intro calls finished hwinner
    obtain ⟨hsame, hcalls, hfinished⟩ := hle.winner u hu hwinner.1
    exact ⟨hsame, hcalls.trans hwinner.2.1, hfinished.trans hwinner.2.2⟩
  cases pc with
  | load => trivial
  | cas cancel => trivial
  | shutdown cancel => exact key h
  | inShutdown cancel => exact key h
  | cancel cancel => exact key h
  | signal pc => exact key h
  | returned result => trivial

theorem ActGate.mono {t u : ι} {g g' : Shared ι} {l : Act} (hu : u ≠ t) (hle : GateLe t g g')
    (h : ActGate u g l) : ActGate u g' l := by
  cases l with
  | run pc =>
      cases pc with
      | load => exact hle.runner u hu h.1 h.2
      | openGate => exact hle.runner u hu h.1 h.2
      | _ => trivial
  | stop pc => exact StopGateOwn.mono hu hle h
  | callback reason pc =>
      refine ⟨h.1, ?_⟩
      have hpc := h.2
      cases pc with
      | inHandler nested =>
          cases nested with
          | none => trivial
          | some pc => exact StopGateOwn.mono hu hle hpc
      | _ => exact hpc
  | _ => trivial

variable [DecidableEq ι] {shutdownFn : Bool} {labels : List (ι × Move)} {c : Cfg ι}

/-- The gate invariant holds at the end of every graceful run. -/
theorem gate_holds (hgraceful : GracefulRun shutdownFn labels)
    (hrun : (machine ι shutdownFn).exec (machine ι shutdownFn).start labels = some c) :
    Program.Holds GateInv ActGate c := by
  have hstart : Program.Holds GateInv ActGate (machine ι shutdownFn).start :=
    ⟨gateInv_start shutdownFn, fun _ => trivial⟩
  refine Program.inv_of_own_and_others ?_ ?_ hstart hgraceful hrun
  · intro t g l move g' l' hinv hown hguard hstep
    obtain ⟨hinv', hown', _⟩ := gate_act_step hinv hown hguard (advance_cases hstep)
    exact ⟨hinv', hown'⟩
  · intro t u g l m move g' l' hu hinv hown hother hguard hstep
    obtain ⟨_, _, hle⟩ := gate_act_step hinv hown hguard (advance_cases hstep)
    exact hother.mono hu hle

/-! ## The protocol -/

/-- What the stop gate promises of a run that ends in `c`. -/
structure StopGateProtocol (shutdownFn : Bool) (labels : List (ι × Move)) (c : Cfg ι) : Prop where
  /-- `consumer.Shutdown` is called at most once. -/
  shutdown_once : c.shared.hist.shutdownCalls ≤ 1
  /-- A stop whose compare-and-swap lands before `llingr_run` opened the gate changes nothing. -/
  early_stop : ∀ t before move after cancel,
    (machine ι shutdownFn).Takes (machine ι shutdownFn).start labels before (t, move) after →
    (before.threads t).stopFrame = some (.cas cancel) → before.shared.hist.gateOpened = false →
    after.shared = before.shared ∧ (after.threads t).stopFrame = some (.returned .lost)
  /-- The first stop whose compare-and-swap lands on an open gate drives `Shutdown`: it stands
  before the call, the call is the only step it has, and once it is taken there is one call. -/
  winner_drives : ∀ t before move after cancel,
    (machine ι shutdownFn).Takes (machine ι shutdownFn).start labels before (t, move) after →
    (before.threads t).stopFrame = some (.cas cancel) → before.shared.state.stopGateOpen = true →
    before.shared.hist.winner = none ∧ after.shared.hist.winner = some t ∧
      (after.threads t).stopFrame = some (.shutdown cancel) ∧
      (c.shared.hist.shutdownCalls = 1 ∨ (c.threads t).stopFrame = some (.shutdown cancel) ∧
        ∃ d, (machine ι shutdownFn).next c (t, .step) = some d ∧ d.shared.hist.shutdownCalls = 1)
  /-- A stop that has not won changes nothing at any of its steps, and one that has lost the gate
  has returned. -/
  loser_harmless : ∀ t before move after pc,
    (machine ι shutdownFn).Takes (machine ι shutdownFn).start labels before (t, move) after →
    (before.threads t).stopFrame = some pc → ¬ pc.Won →
    (after.shared = before.shared ∧
      ∀ pc', (after.threads t).stopFrame = some pc' → ¬ pc'.Won ∧ pc ≠ .returned .lost) ∨
    before.shared.state.stopGateOpen = true ∧ ∃ cancel, pc = .cas cancel
  /-- The context is cancelled only after the winning `Shutdown` has returned or panicked. -/
  cancel_after_shutdown : c.shared.ctxCancelled = true → c.shared.hist.shutdownFinished = true
  /-- `runDone` is closed at most once. -/
  runDone_once : ∀ done, c.shared.state.runDone = some done → done.closes ≤ 1
  /-- `runDone` is closed in every state where the winning stop or the callback has returned. -/
  runDone_closed : (c.shared.hist.stopReturned = true ∨ c.shared.hist.callbackReturned = true) →
    c.shared.state.RunDoneClosed
  /-- The history records those returns. -/
  returns_recorded : ∀ t, ((c.threads t).stopFrame = some (.returned .won) →
      c.shared.hist.stopReturned = true) ∧
    (∀ reason, c.threads t = .callback reason .returned → c.shared.hist.callbackReturned = true)
  /-- A parked `llingr_run` is not left parked. -/
  not_left_parked : (c.shared.hist.stopReturned = true ∨ c.shared.hist.callbackReturned = true) →
    ∀ t, c.threads t = .run .park →
      ∃ d, (machine ι shutdownFn).next c (t, .step) = some d ∧ d.threads t = .run (.returned 0)

/-- A frame before its call of `Shutdown` is still there, or the call was made. -/
theorem shutdown_pending_or_called {t : ι} {cancel : Bool} {d : Cfg ι}
    {later : List (ι × Move)} (hframe : (c.threads t).stopFrame = some (.shutdown cancel))
    (hrun : (machine ι shutdownFn).exec c later = some d) :
    (d.threads t).stopFrame = some (.shutdown cancel) ∨ 1 ≤ d.shared.hist.shutdownCalls := by
  refine Machine.inv_of_exec (I := fun d : Cfg ι =>
    (d.threads t).stopFrame = some (.shutdown cancel) ∨ 1 ≤ d.shared.hist.shutdownCalls)
    ?_ (.inl hframe) hrun
  intro e label f hpending hnext
  obtain ⟨u, move⟩ := label
  have hstep := actStep_of_next hnext
  rcases hpending with hframe | hcalled
  · rcases eq_or_ne t u with rfl | hu
    · rcases hstep.stopFrame hframe with ⟨pc', hstop, _⟩ | ⟨⟨result, hresult⟩, _⟩
      · refine .inr ?_
        rw [hstop.of_shutdown]
        exact Nat.le_add_left 1 _
      · cases hresult
    · rw [(Program.next_eq_some hnext).2 t hu]
      exact .inl hframe
  · exact .inr (hcalled.trans hstep.shutdownCalls_le)

/-- The step of a frame that stands before its call of `Shutdown` is enabled. -/
theorem shutdown_enabled (shutdownFn : Bool) {t : ι} {cancel : Bool}
    (hframe : (c.threads t).stopFrame = some (.shutdown cancel)) :
    ∃ d, (machine ι shutdownFn).next c (t, .step) = some d ∧
      d.shared.hist.shutdownCalls = c.shared.hist.shutdownCalls + 1 := by
  cases hlocal : c.threads t with
  | stop pc =>
      rw [hlocal] at hframe
      cases hframe
      refine ⟨_, Program.next_of_step (by rw [hlocal]; rfl), rfl⟩
  | callback reason pc =>
      rw [hlocal] at hframe
      cases pc with
      | inHandler nested =>
          cases hframe
          refine ⟨_, Program.next_of_step (by rw [hlocal]; rfl), rfl⟩
      | _ => simp [Act.stopFrame] at hframe
  | _ => simp [hlocal, Act.stopFrame] at hframe

omit [DecidableEq ι] in
/-- The assertion of a stop frame, nested or not. -/
theorem gateOwn_of_frame {t : ι} {pc : StopPc} (hthreads : ∀ t, ActGate t c.shared (c.threads t))
    (hframe : (c.threads t).stopFrame = some pc) : StopGateOwn t c.shared pc := by
  have hown := hthreads t
  cases hlocal : c.threads t with
  | stop pc =>
      rw [hlocal] at hframe hown
      cases hframe
      exact hown
  | callback reason pc =>
      rw [hlocal] at hframe hown
      cases pc with
      | inHandler nested =>
          cases hframe
          exact hown.2
      | _ => simp [Act.stopFrame] at hframe
  | _ => simp [hlocal, Act.stopFrame] at hframe

/-- The gate invariant holds wherever a graceful run passes. -/
theorem gate_of_takes {before after : Cfg ι} {label : ι × Move}
    (hgraceful : GracefulRun shutdownFn labels)
    (htakes : (machine ι shutdownFn).Takes (machine ι shutdownFn).start labels before label after) :
    Program.Holds GateInv ActGate before := by
  obtain ⟨earlier, later, rfl, hearlier, _⟩ := htakes
  exact gate_holds (Machine.Guarded.of_append hgraceful) hearlier

/-- A parked `llingr_run` is enabled once the channel is closed. -/
theorem unpark_enabled {t : ι} (hpark : c.threads t = .run .park)
    (hclosed : c.shared.state.RunDoneClosed) :
    ∃ d, (machine ι shutdownFn).next c (t, .step) = some d ∧ d.threads t = .run (.returned 0) := by
  obtain ⟨done, hdone, hpos⟩ := hclosed
  have hstep : (program ι shutdownFn).step t c.shared (c.threads t) .step =
      some ({ c.shared with hist := { c.shared.hist with runReturned := true } },
        .run (.returned 0)) := by
    simp [program, hpark, advance, llingrRun, hdone, hpos]
  exact ⟨_, Program.next_of_step hstep, by simp⟩

/-- **Stop-gate protocol.**  With one call of `llingr_run` and no emergency exit,
every interleaving keeps the promises of the gate. -/
theorem stopGate_protocol (hgraceful : GracefulRun shutdownFn labels)
    (hrun : (machine ι shutdownFn).exec (machine ι shutdownFn).start labels = some c) :
    StopGateProtocol shutdownFn labels c := by
  obtain ⟨hgate, hthreads⟩ := gate_holds hgraceful hrun
  obtain ⟨hdone, hsignals⟩ := runDone_holds (c := c) ⟨labels, hrun⟩
  -- whoever returns has been through the once, which closes `runDone`
  have hclosed : (c.shared.hist.stopReturned = true ∨ c.shared.hist.callbackReturned = true) →
      c.shared.state.RunDoneClosed := by
    rintro (hreturned | hreturned)
    · exact hdone.closed_of_done (hdone.stopReturned hreturned)
    · exact hdone.closed_of_done (hdone.callbackReturned hreturned)
  refine ⟨hgate.calls, ?_, ?_, ?_, hgate.cancelled, ?_, hclosed, ?_, ?_⟩
  · intro t before move after cancel htakes hframe hunopened
    have hinv : GateInv before.shared := (gate_of_takes hgraceful htakes).1
    rcases (actStep_of_takes htakes).stopFrame hframe with ⟨pc', hstop, hafter⟩ | ⟨⟨_, h⟩, _⟩
    · rcases hstop.of_cas with ⟨hopen, _⟩ | ⟨_, hsame, rfl⟩
      · simp [(hinv.opened hopen).2] at hunopened
      · exact ⟨hsame, hafter⟩
    · cases h
  -- the stop that finds the gate open wins, and its call of `Shutdown` is made or still ahead
  · intro t before move after cancel htakes hframe hopen
    have hinv : GateInv before.shared := (gate_of_takes hgraceful htakes).1
    rcases (actStep_of_takes htakes).stopFrame hframe with ⟨pc', hstop, hafter⟩ | ⟨⟨_, h⟩, _⟩
    · rcases hstop.of_cas with ⟨_, hwinner, rfl⟩ | ⟨hshut, _⟩
      · refine ⟨(hinv.opened hopen).1, hwinner, hafter, ?_⟩
        obtain ⟨later, hlater⟩ := htakes.exec_after hrun
        rcases shutdown_pending_or_called hafter hlater with hpending | hcalled
        · have hzero : c.shared.hist.shutdownCalls = 0 := (gateOwn_of_frame hthreads hpending).2.1
          obtain ⟨d, hnext, hcalls⟩ := shutdown_enabled shutdownFn hpending
          exact .inr ⟨hpending, d, hnext, by omega⟩
        · exact .inl (le_antisymm hgate.calls hcalled)
      · simp [hopen] at hshut
    · cases h
  -- a stop that has not won writes nothing but its loss
  · intro t before move after pc htakes hframe hwon
    rcases (actStep_of_takes htakes).stopFrame hframe with ⟨pc', hstop, hafter⟩ | ⟨_, hsame, hnone⟩
    · rcases hstop.of_not_won hwon with ⟨hsame, hpc'⟩ | hcas
      · refine .inl ⟨hsame, fun other hother => ?_⟩
        rw [hafter] at hother
        cases hother
        refine ⟨hpc', ?_⟩
        rintro rfl
        cases hstop
      · exact .inr hcas
    · exact .inl ⟨hsame, by simp [hnone]⟩
  · intro done hrunDone
    rw [hdone.closes done hrunDone]
    cases c.shared.state.runDoneOnce <;> simp [Once.fired]
  · intro t
    have hown := hsignals t
    refine ⟨fun hframe => ?_, fun reason hlocal => ?_⟩
    · cases hlocal : c.threads t with
      | stop pc =>
          rw [hlocal] at hframe hown
          cases hframe
          exact hown
      | callback reason pc =>
          rw [hlocal] at hframe hown
          cases pc with
          | inHandler nested =>
              cases hframe
              exact hown.2
          | _ => simp [Act.stopFrame] at hframe
      | _ => simp [hlocal, Act.stopFrame] at hframe
    · rw [hlocal] at hown
      exact hown.2
  · intro hreturned t hpark
    exact unpark_enabled hpark (hclosed hreturned)

/-- A graceful run in which the handler calls `llingr_stop` while the winning stop
is inside `Shutdown`: the nested stop loses, the winner returns, and so does the
parked `llingr_run`. -/
def reentrantStopRun : List (ℕ × Move) :=
  [(0, .call .init), (1, .call .run), (1, .step), (1, .step), (1, .engine .returned),
    (2, .call .stop), (2, .step), (2, .step), (2, .step), (3, .callback none), (3, .step),
    (3, .step), (3, .handlerStops), (3, .step), (3, .step), (3, .step), (3, .handlerReturns),
    (2, .engine .panicked), (2, .step), (2, .step), (2, .step), (2, .step), (2, .step), (1, .step)]

theorem stopGate_protocol_reentrantStop :
    ∃ c, (machine ℕ true).exec (machine ℕ true).start reentrantStopRun = some c ∧
      c.threads 1 = .run (.returned 0) ∧ StopGateProtocol true reentrantStopRun c :=
  ⟨_, rfl, rfl, stopGate_protocol (by decide) rfl⟩

end LlingrKafka.Lifecycle
