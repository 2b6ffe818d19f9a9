import LlingrKafka.Lifecycle.StopGate

/-!
# The gate after the exit was delivered

The shutdown callback closes the gate before the host handler runs, so that a
`llingr_stop` inside the handler does not re-enter the engine.  `llingr_run`,
however, opens the gate without looking: when the exit is delivered before the
store of `llingr_run`, a later stop finds an open gate and drives `Shutdown`
after all.

`NoShutdownAfterExit` is the promise.  It is false of the run
`exitBeforeOpenGateRun`, and it holds of every run in which no `llingr_run` opens
the gate after the callback has closed it.
-/

namespace LlingrKafka.Lifecycle

open Bridge

variable {ι : Type*}

/-- The thread is inside a stop that has closed an open gate. -/
def Act.Won (l : Act) : Prop := ∃ pc, l.stopFrame = some pc ∧ pc.Won

/-- No `llingr_run` stands before its store into the gate when the callback has
made its own. -/
def NoReopening (_t : ι) (g : Shared ι) (l : Act) (_move : Move) : Prop :=
  l = .run .openGate → g.hist.exitDelivered = false

instance (t : ι) (g : Shared ι) (l : Act) (move : Move) : Decidable (NoReopening t g l move) :=
  inferInstanceAs (Decidable (_ → _))

/-- The callback's store closes the gate for good. -/
def ClosedByExit (g : Shared ι) : Prop :=
  g.hist.exitDelivered = true → g.state.stopGateOpen = false

/-- A step of a stop frame opens no gate, and forgets no delivery. -/
theorem StopStep.exit {t : ι} {g g' : Shared ι} {pc pc' : StopPc} (h : StopStep t g pc g' pc') :
    g'.hist.exitDelivered = g.hist.exitDelivered ∧
      (g.state.stopGateOpen = false → g'.state.stopGateOpen = false) := by
  cases h with
  | win cancel hgate => exact ⟨rfl, fun _ => rfl⟩
  | signal hsignal => exact ⟨rfl, fun hshut => hsignal.gate.trans hshut⟩
  | _ => exact ⟨rfl, id⟩

/-- A delivered exit stays delivered. -/
theorem ActStep.exitDelivered {t : ι} {g g' : Shared ι} {l l' : Act} {move : Move}
    (h : ActStep t g l move g' l') (hexit : g.hist.exitDelivered = true) :
    g'.hist.exitDelivered = true := by
  cases h with
  | run hrun => cases hrun <;> exact hexit
  | stop hstop => exact hstop.exit.1.trans hexit
  | callback hcallback =>
      cases hcallback with
      | storeGate => rfl
      | nested hstop => exact hstop.exit.1.trans hexit
      | _ => exact hexit
  | _ => exact hexit

/-- Only `llingr_run` opens the gate, and the guard keeps it from doing so after
the exit. -/
theorem ActStep.closedByExit {t : ι} {g g' : Shared ι} {l l' : Act} {move : Move}
    (hshut : ClosedByExit g) (hguard : NoReopening t g l move) (h : ActStep t g l move g' l') :
    ClosedByExit g' := by
  have hstop : ∀ {pc pc' g'}, StopStep t g pc g' pc' → ClosedByExit g' := by
    intro pc pc' g' hstep hexit
    obtain ⟨hsame, hclosed⟩ := hstep.exit
    exact hclosed (hshut (hsame.symm.trans hexit))
  cases h with
  | run hrun =>
      cases hrun with
      | openGate =>
          intro hexit
          have hnot : g.hist.exitDelivered = false := hguard rfl
          rw [show g.hist.exitDelivered = true from hexit] at hnot
          cases hnot
      | _ => exact hshut
  | stop h => exact hstop h
  | callback hcallback =>
      cases hcallback with
      | storeGate => exact fun _ => rfl
      | nested h => exact hstop h
      | signal hsignal => exact fun hexit => hsignal.gate.trans (hshut hexit)
      | _ => exact hshut
  | _ => exact hshut

/-- The callback's deferred calls are not a stop frame. -/
theorem stopFrame_afterHandler (reason : Option String) :
    (Act.callback reason (afterHandler reason)).stopFrame = none := by
  unfold afterHandler
  split <;> rfl

/-- At a closed gate nobody wins. -/
theorem ActStep.not_won {t : ι} {g g' : Shared ι} {l l' : Act} {move : Move}
    (h : ActStep t g l move g' l') (hgate : g.state.stopGateOpen = false) (hwon : ¬ l.Won) :
    ¬ l'.Won := by
  rintro ⟨pc', hframe', hpc'⟩
  cases hframe : l.stopFrame with
  | none =>
      -- the frame has just been entered
      have hload : pc' = .load := by
        cases h with
        | enterStop => exact (Option.some_inj.mp hframe').symm
        | callback hcallback =>
            cases hcallback with
            | handlerStops => exact (Option.some_inj.mp hframe').symm
            | noHandler hfn => simp [stopFrame_afterHandler] at hframe'
            | handlerReturns => simp [stopFrame_afterHandler] at hframe'
            | nested hstop => cases hframe
            | _ => simp [Act.stopFrame] at hframe'
        | stop hstop => cases hframe
        | _ => simp [Act.stopFrame] at hframe'
      rw [hload] at hpc'
      exact hpc'
  | some pc =>
      have hpc : ¬ pc.Won := fun hpc => hwon ⟨pc, hframe, hpc⟩
      rcases h.stopFrame hframe with ⟨pc'', hstop, hafter⟩ | ⟨_, _, hnone⟩
      · rw [hafter, Option.some_inj] at hframe'
        subst hframe'
        rcases hstop.of_not_won hpc with ⟨_, hnot⟩ | ⟨hopen, _⟩
        · exact hnot hpc'
        · simp [hgate] at hopen
      · simp [hnone] at hframe'

/-- A thread that has not won does not call `Shutdown`. -/
theorem ActStep.shutdownCalls_of_not_won {t : ι} {g g' : Shared ι} {l l' : Act} {move : Move}
    (h : ActStep t g l move g' l') (hwon : ¬ l.Won) :
    g'.hist.shutdownCalls = g.hist.shutdownCalls := by
  have hstop : ∀ {pc pc' g'}, l.stopFrame = some pc → StopStep t g pc g' pc' →
      g'.hist.shutdownCalls = g.hist.shutdownCalls := by
    intro pc pc' g' hframe hstep
    cases hstep with
    | callShutdown cancel => exact absurd ⟨_, hframe, trivial⟩ hwon
    | _ => rfl
  cases h with
  | run hrun => cases hrun <;> rfl
  | stop h => exact hstop rfl h
  | callback hcallback =>
      cases hcallback with
      | nested h => exact hstop rfl h
      | _ => rfl
  | _ => rfl

variable [DecidableEq ι] {shutdownFn : Bool} {labels : List (ι × Move)}

/-- A stop that had not won the gate when the callback closed it, re-entrant or
not, never calls `Shutdown`. -/
def NoShutdownAfterExit (shutdownFn : Bool) (labels : List (ι × Move)) : Prop :=
  ∀ earlier later delivered before t move after, labels = earlier ++ later →
    (machine ι shutdownFn).exec (machine ι shutdownFn).start earlier = some delivered →
    delivered.shared.hist.exitDelivered = true → ¬ (delivered.threads t).Won →
    (machine ι shutdownFn).Takes delivered later before (t, move) after →
    after.shared.hist.shutdownCalls = before.shared.hist.shutdownCalls ∧ ¬ (after.threads t).Won

/-- No `llingr_run` of the run opens the gate after the callback has closed it. -/
def RunWithoutReopening (shutdownFn : Bool) (labels : List (ι × Move)) : Prop :=
  (machine ι shutdownFn).Guarded (Program.guardOn NoReopening) (machine ι shutdownFn).start labels

instance : Decidable (RunWithoutReopening shutdownFn labels) :=
  inferInstanceAs (Decidable (Machine.Guarded _ _ _ _))

/-- What a guarded run keeps after the delivery: a closed gate, and that a thread
which has not won it does not. -/
theorem not_won_after_exit {delivered c : Cfg ι} {t : ι}
    (hshut : delivered.shared.state.stopGateOpen = false)
    (hexit : delivered.shared.hist.exitDelivered = true) (hwon : ¬ (delivered.threads t).Won)
    (hguard : (machine ι shutdownFn).Guarded (Program.guardOn NoReopening) delivered labels)
    (hrun : (machine ι shutdownFn).exec delivered labels = some c) :
    c.shared.state.stopGateOpen = false ∧ ¬ (c.threads t).Won := by
  have key : (ClosedByExit c.shared ∧ c.shared.hist.exitDelivered = true) ∧
      ¬ (c.threads t).Won := by
    refine Machine.inv_of_guarded (I := fun c : Cfg ι => (ClosedByExit c.shared ∧
      c.shared.hist.exitDelivered = true) ∧ ¬ (c.threads t).Won) ?_
      ⟨⟨fun _ => hshut, hexit⟩, hwon⟩ hguard hrun
    rintro d ⟨u, move⟩ e ⟨⟨hclosed, hdelivered⟩, hnot⟩ hstep hnext
    have hact := actStep_of_next hnext
    refine ⟨⟨hact.closedByExit hclosed hstep, hact.exitDelivered hdelivered⟩, ?_⟩
    rcases eq_or_ne t u with rfl | hu
    · exact hact.not_won (hclosed hdelivered) hnot
    · rw [(Program.next_eq_some hnext).2 t hu]
      exact hnot
  exact ⟨key.1.1 key.1.2, key.2⟩

/-- The gate is closed wherever a guarded run has delivered the exit. -/
theorem closedByExit_of_exec {c : Cfg ι} (hguard : RunWithoutReopening shutdownFn labels)
    (hrun : (machine ι shutdownFn).exec (machine ι shutdownFn).start labels = some c) :
    ClosedByExit c.shared := by
  refine Machine.inv_of_guarded (I := fun c : Cfg ι => ClosedByExit c.shared) ?_ ?_ hguard hrun
  · rintro d ⟨t, move⟩ e hclosed hstep hnext
    exact (actStep_of_next hnext).closedByExit hclosed hstep
  · intro hexit
    cases hexit

/-- **No `Shutdown` after the exit**, when no `llingr_run` opens the gate behind
the callback's back. -/
theorem noShutdownAfterExit (hguard : RunWithoutReopening shutdownFn labels) :
    NoShutdownAfterExit shutdownFn labels := by
  rintro earlier later delivered before t move after rfl hearlier hexit hwon htakes
  have hshut := closedByExit_of_exec (Machine.Guarded.of_append hguard) hearlier hexit
  obtain ⟨first, rest, rfl, hfirst, hnext⟩ := htakes
  have hlater := Machine.Guarded.append hguard hearlier
  have hact := actStep_of_next hnext
  obtain ⟨hgate, hbefore⟩ := not_won_after_exit hshut hexit hwon hlater.of_append hfirst
  exact ⟨hact.shutdownCalls_of_not_won hbefore, hact.not_won hgate hbefore⟩

/-- An emergency exit in a bridge whose `llingr_run` has opened the gate: the stop
inside the handler and the one on another thread both lose. -/
def exitAfterOpenGateRun : List (ℕ × Move) :=
  [(0, .call .init), (1, .call .run), (1, .step), (1, .step), (2, .call .emergencyStop), (2, .step),
    (3, .callback (some "lost lease")), (3, .step), (3, .step), (3, .handlerStops),
    (4, .call .stop), (4, .step), (3, .step), (3, .step), (4, .step)]

theorem noShutdownAfterExit_exitAfterOpenGate :
    NoShutdownAfterExit true exitAfterOpenGateRun :=
  noShutdownAfterExit (by decide)

/-- The emergency exit is delivered while `llingr_run` starts: the handler is
running when the gate is opened, and its nested stop re-enters the engine. -/
def exitBeforeOpenGateRun : List (ℕ × Move) :=
  [(0, .call .init), (1, .call .run), (1, .step), (2, .call .emergencyStop), (2, .step),
    (3, .callback (some "lost lease")), (3, .step), (3, .step), (1, .step), (3, .handlerStops),
    (3, .step), (3, .step), (3, .step)]

theorem not_noShutdownAfterExit : ¬ NoShutdownAfterExit true exitBeforeOpenGateRun := by
  intro h
  obtain ⟨hcalls, _⟩ := h (exitBeforeOpenGateRun.take 8) (exitBeforeOpenGateRun.drop 8) _ _ 3
    .step _ rfl rfl rfl (by rintro ⟨pc, hframe, _⟩; cases hframe)
    ⟨(exitBeforeOpenGateRun.drop 8).take 4, [], rfl, rfl, rfl⟩
  cases hcalls

end LlingrKafka.Lifecycle
