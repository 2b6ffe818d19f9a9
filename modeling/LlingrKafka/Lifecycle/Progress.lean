import LlingrKafka.Foundations.Progress
import LlingrKafka.Lifecycle.RunDone

/-!
# Nothing waits for ever

The calls of the bridge wait for each other in two places: a parked `llingr_run`
waits for `runDone` to be closed, and a caller of `signalRunDone` waits while
another goroutine runs the function of `runDoneOnce`.  Neither wait can last.

* The goroutine the once runs in has one step left, its close, and nothing can
  keep it from taking it (`ActOwes.running`).
* A gate that was opened and is closed again was closed by a stop, which owes the
  close of `runDone` until it has made it (`ActOwes.winner`), or by the shutdown
  callback, which owes it too (`ActOwes.exit`).  A gate that is open lets the next
  stop through.

So from every reachable state each call of the bridge can be brought to its end,
whatever the engine and the handlers did before: the rank of a call counts the
steps it has left.  Nothing is assumed of the run; in particular it holds in the
runs in which the gate is opened after an exit.
-/

namespace LlingrKafka.Lifecycle

open Bridge

variable {ι : Type*}

/-! ## The steps that are left -/

def SignalPc.rank : SignalPc → ℕ
  | .load => 4
  | .enter => 3
  | .close => 2
  | .done => 1

def StopPc.rank : StopPc → ℕ
  | .load => 9
  | .cas _ => 8
  | .shutdown _ => 7
  | .inShutdown _ => 6
  | .cancel _ => 5
  | .signal pc => SignalPc.rank pc
  | .returned _ => 0

def CallbackPc.rank : CallbackPc → ℕ
  | .storeGate => 10
  | .loadHandler => 9
  | .inHandler none => 8
  | .inHandler (some pc) => 9 + pc.rank
  | .cleanupLoad => 7
  | .inCleanup _ => 6
  | .cleanupCancel _ => 5
  | .signal pc => SignalPc.rank pc
  | .returned => 0

/-- The move a stop frame takes next, the engine call it is in ending well. -/
def StopPc.nextMove : StopPc → Move
  | .inShutdown _ => .engine .returned
  | _ => .step

/-- The move the callback takes next, the handler returning. -/
def CallbackPc.nextMove : CallbackPc → Move
  | .inHandler none => .handlerReturns
  | .inHandler (some pc) => pc.nextMove
  | .inCleanup _ => .engine .returned
  | _ => .step

/-- Some call of `signalRunDone` waits for the function of the once to finish. -/
def WaitsForOnce (g : Shared ι) : Prop := ∃ w, g.state.runDoneOnce = .running w

theorem signal_next {t : ι} {g : Shared ι} {pc : SignalPc} (hpc : pc ≠ .done) :
    (∃ state' pc', signalRunDone t g.state pc = some (state', pc') ∧
      SignalPc.rank pc' < SignalPc.rank pc) ∨ pc = .enter ∧ WaitsForOnce g := by
  cases pc with
  | load =>
      cases hdone : g.state.runDone with
      | none => exact .inl ⟨g.state, .done, by rw [signalRunDone, hdone], by decide⟩
      | some done => exact .inl ⟨g.state, .enter, by rw [signalRunDone, hdone], by decide⟩
  | enter =>
      cases honce : g.state.runDoneOnce with
      | fresh => exact .inl ⟨_, .close, by rw [signalRunDone, honce], by decide⟩
      | running w => exact .inr ⟨rfl, w, honce⟩
      | done => exact .inl ⟨_, .done, by rw [signalRunDone, honce], by decide⟩
  | close => exact .inl ⟨_, .done, rfl, by decide⟩
  | done => exact absurd rfl hpc

/-- A stop frame that has not returned can take its next step, unless it waits for the
once. -/
theorem stop_next {t : ι} {g : Shared ι} {pc : StopPc} (hpc : ∀ result, pc ≠ .returned result) :
    (∃ g' pc', llingrStop t g pc pc.nextMove = some (g', pc') ∧ pc'.rank < pc.rank) ∨
      pc = .signal .enter ∧ WaitsForOnce g := by
  cases pc with
  | load =>
      cases hconsumer : g.state.consumer with
      | none =>
          exact .inl ⟨g, .returned .noConsumer, by simp [llingrStop, StopPc.nextMove, hconsumer],
            by decide⟩
      | some call =>
          refine .inl ⟨g, .cas g.state.cancel.isSome, ?_, Nat.lt_succ_self 8⟩
          simp [llingrStop, StopPc.nextMove, hconsumer]
  | cas cancel =>
      cases hgate : g.state.stopGateOpen with
      | false =>
          refine .inl ⟨g, .returned .lost, ?_, Nat.zero_lt_succ 7⟩
          simp [llingrStop, StopPc.nextMove, hgate]
      | true => exact .inl ⟨_, .shutdown cancel, if_pos hgate, Nat.lt_succ_self 7⟩
  | shutdown cancel => exact .inl ⟨_, .inShutdown cancel, rfl, Nat.lt_succ_self 6⟩
  | inShutdown cancel => exact .inl ⟨_, .cancel cancel, rfl, Nat.lt_succ_self 5⟩
  | cancel cancel => exact .inl ⟨_, .signal .load, rfl, Nat.lt_succ_self 4⟩
  | signal pc =>
      by_cases hdone : pc = .done
      · subst hdone
        exact .inl ⟨_, .returned .won, rfl, Nat.zero_lt_succ 0⟩
      · rcases signal_next (t := t) (g := g) hdone with ⟨state', pc', hstep, hrank⟩ | ⟨rfl, hwaits⟩
        · refine .inl ⟨{ g with state := state' }, .signal pc', ?_, hrank⟩
          cases pc with
          | done => exact absurd rfl hdone
          | _ => simp [llingrStop, StopPc.nextMove, hstep]
        · exact .inr ⟨rfl, hwaits⟩
  | returned result => exact absurd rfl (hpc result)

theorem rank_afterHandler (reason : Option String) : (afterHandler reason).rank < 8 := by
  unfold afterHandler
  split <;> decide

/-- The same for the callback. -/
theorem callback_next (t : ι) (g : Shared ι) (reason : Option String) {pc : CallbackPc}
    (hpc : pc ≠ .returned) :
    (∃ g' pc', shutdownCallback t g reason pc pc.nextMove = some (g', pc') ∧ pc'.rank < pc.rank) ∨
      (pc = .signal .enter ∨ pc = .inHandler (some (.signal .enter))) ∧ WaitsForOnce g := by
  cases pc with
  | storeGate => exact .inl ⟨_, .loadHandler, rfl, Nat.lt_succ_self 9⟩
  | loadHandler =>
      cases hfn : g.shutdownFn with
      | true =>
          refine .inl ⟨g, .inHandler none, ?_, Nat.lt_succ_self 8⟩
          simp [shutdownCallback, CallbackPc.nextMove, hfn]
      | false =>
          exact .inl ⟨_, afterHandler reason, if_neg (Bool.eq_false_iff.mp hfn),
            (rank_afterHandler reason).trans (Nat.lt_succ_self 8)⟩
  | inHandler nested =>
      cases nested with
      -- the handler returns, or goes on with the stop it is inside of
      | none => exact .inl ⟨_, afterHandler reason, rfl, rank_afterHandler reason⟩
      | some pc =>
          by_cases hreturned : ∃ result, pc = .returned result
          · obtain ⟨result, rfl⟩ := hreturned
            exact .inl ⟨g, .inHandler none, rfl, Nat.lt_succ_self 8⟩
          · have hpc : ∀ result, pc ≠ .returned result := fun result h => hreturned ⟨result, h⟩
            rcases stop_next (t := t) (g := g) hpc with ⟨g', pc', hstep, hrank⟩ | ⟨rfl, hwaits⟩
            · refine .inl ⟨g', .inHandler (some pc'), ?_, Nat.add_lt_add_left hrank 9⟩
              cases pc with
              | returned result => exact absurd rfl (hpc result)
              | _ =>
                  simp only [CallbackPc.nextMove]
                  simp only [StopPc.nextMove] at hstep ⊢
                  simp [shutdownCallback, hstep]
            · exact .inr ⟨.inr rfl, hwaits⟩
  | cleanupLoad =>
      cases hcleanup : g.state.brokerCleanup with
      | none =>
          refine .inl ⟨g, .cleanupCancel g.state.cancel.isSome, ?_, Nat.lt_add_of_pos_right
            (Nat.zero_lt_succ 1)⟩
          simp [shutdownCallback, CallbackPc.nextMove, hcleanup]
      | some call =>
          refine .inl ⟨{ g with hist := { g.hist with cleanupCalls := g.hist.cleanupCalls + 1 } },
            .inCleanup g.state.cancel.isSome, ?_, Nat.lt_succ_self 6⟩
          simp [shutdownCallback, CallbackPc.nextMove, hcleanup]
  | inCleanup cancel => exact .inl ⟨_, .cleanupCancel cancel, rfl, Nat.lt_succ_self 5⟩
  | cleanupCancel cancel => exact .inl ⟨_, .signal .load, rfl, Nat.lt_succ_self 4⟩
  | signal pc =>
      by_cases hdone : pc = .done
      · subst hdone
        exact .inl ⟨_, .returned, rfl, Nat.zero_lt_succ 0⟩
      · rcases signal_next (t := t) (g := g) hdone with ⟨state', pc', hstep, hrank⟩ | ⟨rfl, hwaits⟩
        · refine .inl ⟨{ g with state := state' }, .signal pc', ?_, hrank⟩
          cases pc with
          | done => exact absurd rfl hdone
          | _ => simp [shutdownCallback, CallbackPc.nextMove, hstep]
        · exact .inr ⟨.inl rfl, hwaits⟩
  | returned => exact absurd rfl hpc

/-! ## Who owes the close -/

/-- The thread is inside the function of the once. -/
def Act.Closing : Act → Prop
  | .stop (.signal .close) | .callback _ (.inHandler (some (.signal .close)))
  | .callback _ (.signal .close) => True
  | _ => False

/-- What a thread owes. -/
structure ActOwes (t : ι) (g : Shared ι) (l : Act) : Prop where
  running : ¬ l.Closing → g.state.runDoneOnce ≠ .running t
  winner : g.hist.winner = some t → (∃ pc, l.stopFrame = some pc ∧ pc.Won) ∨
    g.state.runDoneOnce = .done
  exit : ∀ reason, g.hist.exit = some (t, reason) ↔ ∃ pc, l = .callback reason pc
  gate : l = .run .inSubscribe ∨ l = .run .park →
    g.hist.gateOpened = true ∧ g.state.consumer.isSome = true
  loaded : l = .run .openGate → g.state.consumer.isSome = true

/-- A gate that was opened and is closed was closed by someone. -/
def GateOwed (g : Shared ι) : Prop :=
  g.hist.gateOpened = true → g.state.stopGateOpen = false →
    g.hist.winner.isSome = true ∨ g.hist.exit.isSome = true

/-- What a step of `t` leaves to the others. -/
structure OwesLe (t : ι) (g g' : Shared ι) : Prop where
  running : ∀ u, u ≠ t → g'.state.runDoneOnce = .running u → g.state.runDoneOnce = .running u
  done : g.state.runDoneOnce = .done → g'.state.runDoneOnce = .done
  winner : ∀ u, u ≠ t → g'.hist.winner = some u → g.hist.winner = some u
  exit : ∀ u, u ≠ t → ∀ reason,
    g'.hist.exit = some (u, reason) ↔ g.hist.exit = some (u, reason)
  gateOpened : g.hist.gateOpened = true → g'.hist.gateOpened = true
  consumer : g.state.consumer.isSome = true → g'.state.consumer.isSome = true

theorem OwesLe.refl (t : ι) (g : Shared ι) : OwesLe t g g :=
  ⟨fun _ _ => id, id, fun _ _ => id, fun _ _ _ => .rfl, id, id⟩

theorem ActOwes.mono {t u : ι} {g g' : Shared ι} {l : Act} (hu : u ≠ t) (hle : OwesLe t g g')
    (h : ActOwes u g l) : ActOwes u g' l where
  running := fun hclosing hrunning => h.running hclosing (hle.running u hu hrunning)
  winner := fun hwinner => (h.winner (hle.winner u hu hwinner)).imp id hle.done
  exit := fun reason => (hle.exit u hu reason).trans (h.exit reason)
  gate := fun hl => (h.gate hl).imp hle.gateOpened hle.consumer
  loaded := fun hl => hle.consumer (h.loaded hl)

/-- What a stop frame owes. -/
structure FrameOwes (t : ι) (g : Shared ι) (pc : StopPc) : Prop where
  running : pc ≠ .signal .close → g.state.runDoneOnce ≠ .running t
  winner : g.hist.winner = some t → pc.Won ∨ g.state.runDoneOnce = .done

/-- A step of `signalRunDone` only moves the once, and only into or out of its
function. -/
theorem signal_owes {t : ι} {g : Shared ι} {pc pc' : SignalPc} {state' : BridgeState ι}
    (hrunning : pc ≠ .close → g.state.runDoneOnce ≠ .running t)
    (hown : SignalOwn t g pc) (hgate : GateOwed g) (h : SignalStep t g.state pc state' pc') :
    (pc' ≠ .close → state'.runDoneOnce ≠ .running t) ∧ GateOwed { g with state := state' } ∧
      OwesLe t g { g with state := state' } := by
  cases h with
  | loadNil hdone => exact ⟨fun _ => hrunning nofun, hgate, .refl t g⟩
  | load done hdone => exact ⟨fun _ => hrunning nofun, hgate, .refl t g⟩
  | enter honce =>
      refine ⟨fun h => absurd rfl h, hgate, ⟨?_, ?_, fun _ _ => id, fun _ _ _ => .rfl, id, id⟩⟩
      · intro u hu hother
        exact absurd (Once.running.inj hother).symm hu
      · intro hdone
        rw [honce] at hdone
        cases hdone
  | entered honce => exact ⟨fun _ => hrunning nofun, hgate, .refl t g⟩
  | close =>
      refine ⟨fun _ => nofun, hgate, ⟨?_, fun _ => rfl, fun _ _ => id, fun _ _ _ => .rfl, id, id⟩⟩
      intro u _ hother
      cases hother

theorem stop_owes {t : ι} {g g' : Shared ι} {pc pc' : StopPc} (hown : StopSignals t g pc)
    (hgate : GateOwed g) (howes : FrameOwes t g pc) (h : StopStep t g pc g' pc') :
    FrameOwes t g' pc' ∧ GateOwed g' ∧ OwesLe t g g' ∧ g'.hist.exit = g.hist.exit := by
  obtain ⟨hrunning, hwinner⟩ := howes
  cases h with
  | loadNil hconsumer =>
      exact ⟨⟨fun _ => hrunning nofun, fun h => (hwinner h).imp False.elim id⟩, hgate,
        .refl t g, rfl⟩
  | load hconsumer =>
      exact ⟨⟨fun _ => hrunning nofun, fun h => (hwinner h).imp False.elim id⟩, hgate,
        .refl t g, rfl⟩
  -- the gate is shut, and from now on the winner owes the close
  | win cancel hopen =>
      refine ⟨⟨fun _ => hrunning nofun, fun _ => .inl trivial⟩, fun _ _ => .inl rfl,
        ⟨fun _ _ => id, id, ?_, fun _ _ _ => .rfl, id, id⟩, rfl⟩
      intro u hu hother
      exact absurd (Option.some_inj.mp hother).symm hu
  | lose cancel hclosed =>
      exact ⟨⟨fun _ => hrunning nofun, fun h => (hwinner h).imp False.elim id⟩, hgate,
        .refl t g, rfl⟩
  | callShutdown cancel =>
      exact ⟨⟨fun _ => hrunning nofun, fun _ => .inl trivial⟩, hgate,
        ⟨fun _ _ => id, id, fun _ _ => id, fun _ _ _ => .rfl, id, id⟩, rfl⟩
  | shutdownEnds cancel =>
      exact ⟨⟨fun _ => hrunning nofun, fun _ => .inl trivial⟩, hgate,
        ⟨fun _ _ => id, id, fun _ _ => id, fun _ _ _ => .rfl, id, id⟩, rfl⟩
  | cancel cancel =>
      exact ⟨⟨fun _ => hrunning nofun, fun _ => .inl trivial⟩, hgate,
        ⟨fun _ _ => id, id, fun _ _ => id, fun _ _ _ => .rfl, id, id⟩, rfl⟩
  | signal hsignal =>
      obtain ⟨hrunning', hgate', hle⟩ :=
        signal_owes (fun h => hrunning fun hpc => h (StopPc.signal.inj hpc)) hown hgate hsignal
      exact ⟨⟨fun h => hrunning' fun hpc => h (congrArg StopPc.signal hpc), fun _ => .inl trivial⟩,
        hgate', hle, rfl⟩
  | ret =>
      exact ⟨⟨fun _ => hrunning nofun, fun _ => .inl trivial⟩, hgate,
        ⟨fun _ _ => id, id, fun _ _ => id, fun _ _ _ => .rfl, id, id⟩, rfl⟩

/-- A step that leaves everything the obligations read. -/
structure SameOwed (g g' : Shared ι) : Prop where
  once : g'.state.runDoneOnce = g.state.runDoneOnce
  gate : g'.state.stopGateOpen = g.state.stopGateOpen
  winner : g'.hist.winner = g.hist.winner
  exit : g'.hist.exit = g.hist.exit
  gateOpened : g'.hist.gateOpened = g.hist.gateOpened
  consumer : g.state.consumer.isSome = true → g'.state.consumer.isSome = true

theorem SameOwed.refl (g : Shared ι) : SameOwed g g := ⟨rfl, rfl, rfl, rfl, rfl, id⟩

theorem SameOwed.le {t : ι} {g g' : Shared ι} (h : SameOwed g g') : OwesLe t g g' where
  running := fun _ _ hrunning => h.once ▸ hrunning
  done := fun hdone => h.once.trans hdone
  winner := fun _ _ hwinner => h.winner ▸ hwinner
  exit := fun _ _ _ => by rw [h.exit]
  gateOpened := fun hopened => h.gateOpened.trans hopened
  consumer := h.consumer

theorem SameOwed.gateOwed {g g' : Shared ι} (h : SameOwed g g') (hgate : GateOwed g) :
    GateOwed g' := by
  unfold GateOwed
  rw [h.gateOpened, h.gate, h.winner, h.exit]
  exact hgate

/-- A move that neither enters nor leaves a stop frame that owes the close. -/
theorem ActOwes.move {t : ι} {g g' : Shared ι} {l l' : Act} (h : ActOwes t g l)
    (hsame : SameOwed g g') (hclosing : ¬ l.Closing)
    (hframe : ∀ pc, l.stopFrame = some pc → pc.Won → g.state.runDoneOnce = .done)
    (hexit : ∀ reason, (∃ pc, l = .callback reason pc) ↔ ∃ pc, l' = .callback reason pc)
    (hgate : l' = .run .inSubscribe ∨ l' = .run .park →
      g.hist.gateOpened = true ∧ g.state.consumer.isSome = true)
    (hloaded : l' = .run .openGate → g.state.consumer.isSome = true) : ActOwes t g' l' where
  running := by
    intro _
    rw [hsame.once]
    exact h.running hclosing
  winner := by
    intro hwinner
    rw [hsame.winner] at hwinner
    rw [hsame.once]
    rcases h.winner hwinner with ⟨pc, hpc, hwon⟩ | hdone
    · exact .inr (hframe pc hpc hwon)
    · exact .inr hdone
  exit := by
    intro reason
    rw [hsame.exit]
    exact (h.exit reason).trans (hexit reason)
  gate := by
    intro hl
    rw [hsame.gateOpened]
    exact (hgate hl).imp id hsame.consumer
  loaded := fun hl => hsame.consumer (hloaded hl)

/-- The obligations of a thread whose stop frame moved. -/
theorem ActOwes.of_frame {t : ι} {g g' : Shared ι} {l l' : Act} {pc' : StopPc}
    (h : ActOwes t g l) (hframe : FrameOwes t g' pc') (hexit : g'.hist.exit = g.hist.exit)
    (hl' : l'.stopFrame = some pc') (hclosing : pc' = .signal .close → l'.Closing)
    (hcallback : ∀ reason, (∃ pc, l = .callback reason pc) ↔ ∃ pc, l' = .callback reason pc) :
    ActOwes t g' l' where
  running := fun hnot => hframe.running fun hpc => hnot (hclosing hpc)
  winner := fun hwinner => (hframe.winner hwinner).imp (fun hwon => ⟨pc', hl', hwon⟩) id
  exit := by
    intro reason
    rw [hexit]
    exact (h.exit reason).trans (hcallback reason)
  gate := by
    rintro (rfl | rfl) <;> cases hl'
  loaded := by
    rintro rfl
    cases hl'

theorem Act.Closing.frame {l : Act} {pc : StopPc} (h : l.Closing) (hl : l.stopFrame = some pc) :
    pc = .signal .close := by
  unfold Act.Closing at h
  split at h
  · exact (Option.some_inj.mp hl).symm
  · exact (Option.some_inj.mp hl).symm
  · cases hl
  · exact h.elim

/-- What a thread owes as a stop frame. -/
theorem ActOwes.frame {t : ι} {g : Shared ι} {l : Act} {pc : StopPc} (h : ActOwes t g l)
    (hl : l.stopFrame = some pc) : FrameOwes t g pc where
  running := fun hpc => h.running fun hclosing => hpc (hclosing.frame hl)
  winner := by
    intro hwinner
    refine (h.winner hwinner).imp ?_ id
    rintro ⟨pc', hpc', hwon⟩
    rw [hl, Option.some_inj] at hpc'
    exact hpc' ▸ hwon

theorem not_callback_iff {l l' : Act} (hl : ∀ reason pc, l ≠ .callback reason pc)
    (hl' : ∀ reason pc, l' ≠ .callback reason pc) (reason : Option String) :
    (∃ pc, l = .callback reason pc) ↔ ∃ pc, l' = .callback reason pc := by
  refine iff_of_false ?_ ?_
  · rintro ⟨pc, hpc⟩
    exact hl reason pc hpc
  · rintro ⟨pc, hpc⟩
    exact hl' reason pc hpc

theorem callback_iff (reason' : Option String) (pc pc' : CallbackPc) (reason : Option String) :
    (∃ p, Act.callback reason' pc = .callback reason p) ↔
      ∃ p, Act.callback reason' pc' = .callback reason p := by
  constructor
  · rintro ⟨_, h⟩
    exact ⟨pc', by rw [(Act.callback.inj h).1]⟩
  · rintro ⟨_, h⟩
    exact ⟨pc, by rw [(Act.callback.inj h).1]⟩

/-- A step of the callback. -/
theorem callback_owes {t : ι} {g g' : Shared ι} {reason : Option String} {pc pc' : CallbackPc}
    (hinv : RunDoneInv g) (hown : ActSignals t g (.callback reason pc)) (hgate : GateOwed g)
    (howes : ActOwes t g (.callback reason pc)) (h : CallbackStep t g reason pc g' pc') :
    GateOwed g' ∧ ActOwes t g' (.callback reason pc') ∧ OwesLe t g g' := by
  -- most steps leave what is owed, and only have to owe nothing new themselves
  have hquiet : SameOwed g g' → ¬ (Act.callback reason pc).Closing →
      (∀ p, (Act.callback reason pc).stopFrame = some p → p.Won → g.state.runDoneOnce = .done) →
      GateOwed g' ∧ ActOwes t g' (.callback reason pc') ∧ OwesLe t g g' := by
    intro hsame hclosing hframe
    exact ⟨hsame.gateOwed hgate,
      howes.move hsame hclosing hframe (callback_iff reason pc pc') nofun nofun, hsame.le⟩
  cases h with
  -- the gate is shut without a winner; the delivered exit owes the close in its place
  | storeGate =>
      have hexit := (howes.exit reason).mpr ⟨.storeGate, rfl⟩
      refine ⟨fun _ _ => .inr (by rw [hexit]; rfl), ⟨fun _ => howes.running id, ?_, ?_, nofun,
        nofun⟩, ⟨fun _ _ => id, id, fun _ _ => id, fun _ _ _ => .rfl, id, id⟩⟩
      · intro hwinner
        exact (howes.winner hwinner).imp (fun ⟨_, hframe, _⟩ => nomatch hframe) id
      · intro r
        exact (howes.exit r).trans (callback_iff reason _ _ r)
  | callHandler hfn => exact hquiet (.refl g) id nofun
  | noHandler hfn => exact hquiet ⟨rfl, rfl, rfl, rfl, rfl, id⟩ id nofun
  | handlerStops => exact hquiet (.refl g) id nofun
  | handlerReturns => exact hquiet ⟨rfl, rfl, rfl, rfl, rfl, id⟩ id nofun
  | resume result =>
      refine hquiet (.refl g) id ?_
      intro p hp hwon
      obtain rfl := Option.some_inj.mp hp
      cases result with
      | won => exact hinv.stopReturned hown.2
      | _ => exact hwon.elim
  | nested hstop =>
      obtain ⟨hframe', hgate', hle, hexit⟩ := stop_owes hown.2 hgate (howes.frame rfl) hstop
      exact ⟨hgate', howes.of_frame hframe' hexit rfl (by rintro rfl; trivial)
        (callback_iff reason _ _), hle⟩
  | noCleanup hcleanup => exact hquiet (.refl g) id nofun
  | callCleanup hcleanup => exact hquiet ⟨rfl, rfl, rfl, rfl, rfl, id⟩ id nofun
  | cleanupEnds cancel => exact hquiet ⟨rfl, rfl, rfl, rfl, rfl, id⟩ id nofun
  | cleanupCancel cancel => exact hquiet ⟨rfl, rfl, rfl, rfl, rfl, id⟩ id nofun
  | signal hsignal =>
      obtain ⟨hrunning, hgate', hle⟩ := signal_owes
        (fun hpc => howes.running fun hclosing => by
          cases hsignal <;> first | exact hclosing.elim | exact hpc rfl) hown.2 hgate hsignal
      refine ⟨hgate', ⟨fun hnot => hrunning ?_, ?_, ?_, nofun, nofun⟩, hle⟩
      · rintro rfl
        exact hnot trivial
      · intro hwinner
        exact .inr (hle.done ((howes.winner hwinner).resolve_left fun ⟨_, hframe, _⟩ =>
          nomatch hframe))
      · intro r
        exact (howes.exit r).trans (callback_iff reason _ _ r)
  | ret => exact hquiet ⟨rfl, rfl, rfl, rfl, rfl, id⟩ id nofun

/-- A move of a thread keeps what is owed. -/
theorem owes_step {t : ι} {g g' : Shared ι} {l l' : Act} {move : Move} (hinv : RunDoneInv g)
    (hown : ActSignals t g l) (hgate : GateOwed g) (howes : ActOwes t g l)
    (h : ActStep t g l move g' l') : GateOwed g' ∧ ActOwes t g' l' ∧ OwesLe t g g' := by
  -- as for the callback
  have hquiet : SameOwed g g' → ¬ l.Closing → l.stopFrame = none →
      (∀ reason, (∃ pc, l = .callback reason pc) ↔ ∃ pc, l' = .callback reason pc) →
      (l' = .run .inSubscribe ∨ l' = .run .park →
        g.hist.gateOpened = true ∧ g.state.consumer.isSome = true) →
      (l' = .run .openGate → g.state.consumer.isSome = true) →
      GateOwed g' ∧ ActOwes t g' l' ∧ OwesLe t g g' := by
    intro hsame hclosing hframe hcallback hrun hloaded
    refine ⟨hsame.gateOwed hgate, howes.move hsame hclosing ?_ hcallback hrun hloaded, hsame.le⟩
    intro pc hpc
    rw [hframe] at hpc
    cases hpc
  cases h with
  | init hnone =>
      exact hquiet ⟨rfl, rfl, rfl, rfl, rfl, fun _ => rfl⟩ id rfl (not_callback_iff nofun nofun)
        nofun nofun
  | enterRun =>
      exact hquiet ⟨rfl, rfl, rfl, rfl, rfl, id⟩ id rfl (not_callback_iff nofun nofun) nofun nofun
  | enterStop =>
      exact hquiet (.refl g) id rfl (not_callback_iff nofun nofun) nofun nofun
  | enterEmergency =>
      exact hquiet (.refl g) id rfl (not_callback_iff nofun nofun) nofun nofun
  | enterCallback reason hinit hexit =>
      refine ⟨fun _ _ => .inr rfl, ⟨fun _ => howes.running id, ?_, ?_, nofun, nofun⟩,
        ⟨fun _ _ => id, id, fun _ _ => id, ?_, id, id⟩⟩
      · intro hwinner
        exact (howes.winner hwinner).imp (fun ⟨_, hframe, _⟩ => nomatch hframe) id
      · intro r
        constructor
        · intro h
          exact ⟨.storeGate, by rw [(Prod.mk.inj (Option.some_inj.mp h)).2]⟩
        · rintro ⟨_, h⟩
          rw [(Act.callback.inj h).1]
      · intro u hu r
        refine iff_of_false ?_ ?_
        · intro h
          exact hu (Prod.mk.inj (Option.some_inj.mp h)).1.symm
        · intro h
          rw [hexit] at h
          cases h
  | run hrun =>
      cases hrun with
      | loadNil hconsumer =>
          exact hquiet (.refl g) id rfl (not_callback_iff nofun nofun) nofun nofun
      | load hconsumer =>
          exact hquiet (.refl g) id rfl (not_callback_iff nofun nofun) nofun fun _ => hconsumer
      -- the gate opens, so nobody has to have shut it
      | openGate =>
          refine ⟨fun _ => nofun, ⟨fun _ => howes.running id, ?_, ?_, ?_, nofun⟩,
            ⟨fun _ _ => id, id, fun _ _ => id, fun _ _ _ => .rfl, fun _ => rfl, id⟩⟩
          · intro hwinner
            exact (howes.winner hwinner).imp (fun ⟨_, hframe, _⟩ => nomatch hframe) id
          · intro r
            have hcallback : ∀ r, (∃ pc, Act.run .openGate = .callback r pc) ↔
                ∃ pc, Act.run .inSubscribe = .callback r pc := not_callback_iff nofun nofun
            exact (howes.exit r).trans (hcallback r)
          · intro _
            exact ⟨rfl, howes.loaded rfl⟩
      | subscribed =>
          exact hquiet (.refl g) id rfl (not_callback_iff nofun nofun)
            (fun _ => howes.gate (.inl rfl)) nofun
      | subscribeFailed =>
          exact hquiet (.refl g) id rfl (not_callback_iff nofun nofun) nofun nofun
      | subscribePanicked =>
          exact hquiet (.refl g) id rfl (not_callback_iff nofun nofun) nofun nofun
      | unpark hclosed =>
          exact hquiet ⟨rfl, rfl, rfl, rfl, rfl, id⟩ id rfl (not_callback_iff nofun nofun) nofun
            nofun
  | stop hstop =>
      obtain ⟨hframe', hgate', hle, hexit⟩ := stop_owes hown hgate (howes.frame rfl) hstop
      exact ⟨hgate', howes.of_frame hframe' hexit rfl (by rintro rfl; trivial)
        (not_callback_iff nofun nofun), hle⟩
  | emergency pc pc' move =>
      exact hquiet (.refl g) id rfl (not_callback_iff nofun nofun) nofun nofun
  | callback hcallback => exact callback_owes hinv hown hgate howes hcallback

variable [DecidableEq ι] {shutdownFn : Bool} {c : Cfg ι}

/-- What is owed, in every reachable state. -/
theorem owes_holds (hreach : (machine ι shutdownFn).Reachable c) :
    Program.Holds (fun g => RunDoneInv g ∧ GateOwed g)
      (fun t g l => ActSignals t g l ∧ ActOwes t g l) c := by
  obtain ⟨labels, hrun⟩ := hreach
  have hstart : Program.Holds (fun g => RunDoneInv g ∧ GateOwed g)
      (fun t g l => ActSignals t g l ∧ ActOwes t g l) (machine ι shutdownFn).start := by
    refine ⟨⟨runDoneInv_start shutdownFn, fun hopened => nomatch hopened⟩, fun t =>
      ⟨trivial, ⟨fun _ => nofun, nofun, fun reason => ?_, nofun, nofun⟩⟩⟩
    exact iff_of_false nofun (fun ⟨_, h⟩ => nomatch h)
  refine Program.inv_of_own_and_others (G := fun _ _ _ _ => True) ?_ ?_ hstart
    (Machine.guarded_of_forall (fun _ _ => trivial) _ labels) hrun
  · intro t g l move g' l' hinv hown _ hstep
    have hstep := advance_cases hstep
    obtain ⟨hinv', hown', _⟩ := act_step hinv.1 hown.1 hstep
    obtain ⟨hgate', howes', _⟩ := owes_step hinv.1 hown.1 hinv.2 hown.2 hstep
    exact ⟨⟨hinv', hgate'⟩, hown', howes'⟩
  · intro t u g l m move g' l' hu hinv hown hother _ hstep
    have hstep := advance_cases hstep
    obtain ⟨_, _, honce⟩ := act_step hinv.1 hown.1 hstep
    obtain ⟨_, _, howes⟩ := owes_step hinv.1 hown.1 hinv.2 hown.2 hstep
    exact ⟨hother.1.mono hu honce, hother.2.mono hu howes⟩

/-! ## Bringing a call to its end -/

omit [DecidableEq ι] in
/-- The goroutine the once runs in can take its last step. -/
theorem closing_next {t : ι} {g : Shared ι} {l : Act} (h : l.Closing) :
    ∃ g' l', advance t g l .step = some (g', l') ∧ g'.state.runDoneOnce = .done := by
  unfold Act.Closing at h
  split at h
  · exact ⟨_, _, rfl, rfl⟩
  · exact ⟨_, _, rfl, rfl⟩
  · exact ⟨_, _, rfl, rfl⟩
  · exact h.elim

/-- The call is one that ends by itself. -/
def Act.Ends : Act → Prop
  | .stop _ | .emergency _ | .callback _ _ => True
  | _ => False

/-- The call has returned. -/
def Act.Returned : Act → Prop
  | .stop (.returned _) | .emergency .returned | .callback _ .returned => True
  | _ => False

def Act.rank : Act → ℕ
  | .stop pc => pc.rank
  | .emergency .load => 2
  | .emergency .inEmergencyShutdown => 1
  | .callback _ pc => pc.rank
  | _ => 0

omit [DecidableEq ι] in
/-- A call that ends by itself can take a step towards its end, unless it waits for
the once. -/
theorem act_next {t : ι} {g : Shared ι} {l : Act} (hends : l.Ends) (hl : ¬ l.Returned) :
    (∃ move g' l', advance t g l move = some (g', l') ∧ l'.Ends ∧ l'.rank < l.rank) ∨
      ¬ l.Closing ∧ WaitsForOnce g := by
  cases l with
  | stop pc =>
      have hpc : ∀ result, pc ≠ .returned result := by
        rintro result rfl
        exact hl trivial
      rcases stop_next (t := t) (g := g) hpc with ⟨g', pc', hstep, hrank⟩ | ⟨rfl, hwaits⟩
      · exact .inl ⟨pc.nextMove, g', .stop pc', by simp [advance, hstep], trivial, hrank⟩
      · exact .inr ⟨id, hwaits⟩
  | emergency pc =>
      cases pc with
      | load =>
          cases hconsumer : g.state.consumer with
          | none =>
              exact .inl ⟨.step, g, .emergency .returned,
                by simp [advance, emergencyStop, hconsumer], trivial, Nat.zero_lt_succ 1⟩
          | some call =>
              exact .inl ⟨.step, g, .emergency .inEmergencyShutdown,
                by simp [advance, emergencyStop, hconsumer], trivial, Nat.lt_succ_self 1⟩
      | inEmergencyShutdown =>
          exact .inl ⟨.engine .returned, g, .emergency .returned, rfl, trivial, Nat.zero_lt_succ 0⟩
      | returned => exact absurd trivial hl
  | callback reason pc =>
      have hpc : pc ≠ .returned := by
        rintro rfl
        exact hl trivial
      rcases callback_next t g reason hpc with
        ⟨g', pc', hstep, hrank⟩ | ⟨rfl | rfl, hwaits⟩
      · exact .inl ⟨pc.nextMove, g', .callback reason pc', by simp [advance, hstep], trivial, hrank⟩
      · exact .inr ⟨id, hwaits⟩
      · exact .inr ⟨id, hwaits⟩
  | _ => exact hends.elim

/-- The steps left to `t`, one of which may be another goroutine's close. -/
def stepsLeft (t : ι) (c : Cfg ι) : ℕ :=
  2 * (c.threads t).rank + match c.shared.state.runDoneOnce with
    | .running _ => 1
    | _ => 0

/-- **Step lemma.**  A call that has not returned can be brought closer to its end, by
a step of its own or of the goroutine it waits for. -/
theorem ends_next {t : ι} (hreach : (machine ι shutdownFn).Reachable c)
    (hends : (c.threads t).Ends) (hl : ¬ (c.threads t).Returned) :
    ∃ u move d, (machine ι shutdownFn).next c (u, move) = some d ∧ (d.threads t).Ends ∧
      stepsLeft t d < stepsLeft t c ∧ (u = t ∨ (c.threads u).Closing) := by
  obtain ⟨_, hthreads⟩ := owes_holds hreach
  rcases act_next (t := t) (g := c.shared) hends hl with
    ⟨move, g', l', hstep, hends', hrank⟩ | ⟨hopen, w, hw⟩
  · obtain ⟨d, hnext, _, hown, _⟩ := Program.exists_next (P := program ι shutdownFn) hstep
    refine ⟨t, move, d, hnext, by rw [hown]; exact hends', ?_, .inl rfl⟩
    unfold stepsLeft
    rw [hown]
    split <;> split <;> omega
  · have hclosing : (c.threads w).Closing := by
      by_contra hnot
      exact (hthreads w).2.running hnot hw
    have hne : t ≠ w := by
      rintro rfl
      exact hopen hclosing
    obtain ⟨g', l', hstep, hdone⟩ := closing_next (t := w) (g := c.shared) hclosing
    obtain ⟨d, hnext, rfl, _, hothers⟩ := Program.exists_next (P := program ι shutdownFn) hstep
    refine ⟨w, .step, d, hnext, by rw [hothers t hne]; exact hends, ?_, .inr hclosing⟩
    unfold stepsLeft
    rw [hothers t hne, hw, hdone]
    exact Nat.lt_succ_self _

/-- Every call of `llingr_stop` and `llingr_emergency_stop`, and the shutdown callback,
can be brought to its end. -/
theorem can_return {t : ι} (hreach : (machine ι shutdownFn).Reachable c)
    (hends : (c.threads t).Ends) :
    (machine ι shutdownFn).CanReach c fun d => (d.threads t).Returned := by
  refine Machine.canReach_of_rank (I := fun d => (d.threads t).Ends) (stepsLeft t) ?_ hreach hends
  intro d hreach hends hl
  obtain ⟨u, move, e, hnext, hends', hless, _⟩ := ends_next hreach hends hl
  exact ⟨(u, move), e, hnext, .inr ⟨hends', hless⟩⟩

/-! ## Letting `llingr_run` go -/

/-- The thread will close `runDone`, or has. -/
def Act.Owing (l : Act) : Prop :=
  (∃ pc, l = .stop pc ∧ pc.Won) ∨ ∃ reason pc, l = .callback reason pc

omit [DecidableEq ι] in
theorem Act.Owing.ends {l : Act} (h : l.Owing) : l.Ends := by
  rcases h with ⟨pc, rfl, _⟩ | ⟨reason, pc, rfl⟩
  · trivial
  · trivial

omit [DecidableEq ι] in
theorem owing_of_frame {l : Act} {pc : StopPc} (hl : l.stopFrame = some pc) (hwon : pc.Won) :
    l.Owing := by
  cases l with
  | stop pc' =>
      obtain rfl := Option.some_inj.mp hl
      exact .inl ⟨_, rfl, hwon⟩
  | callback reason pc' => exact .inr ⟨reason, pc', rfl⟩
  | _ => cases hl

omit [DecidableEq ι] in
theorem StopStep.won {t : ι} {g g' : Shared ι} {pc pc' : StopPc} (h : StopStep t g pc g' pc')
    (hwon : pc.Won) : pc'.Won := by
  cases h with
  | loadNil hconsumer => exact hwon.elim
  | load hconsumer => exact hwon.elim
  | lose cancel hclosed => exact hwon.elim
  | _ => trivial

omit [DecidableEq ι] in
theorem ActStep.owing {t : ι} {g g' : Shared ι} {l l' : Act} {move : Move}
    (h : ActStep t g l move g' l') (howing : l.Owing) : l'.Owing := by
  rcases howing with ⟨pc, rfl, hwon⟩ | ⟨reason, pc, rfl⟩
  · cases h with
    | stop hstop => exact .inl ⟨_, rfl, hstop.won hwon⟩
  · cases h with
    | callback hcallback => exact .inr ⟨_, _, rfl⟩

omit [DecidableEq ι] in
/-- A closer returns only after `runDone` is closed. -/
theorem done_of_returned {t : ι} {g : Shared ι} {l : Act} (hinv : RunDoneInv g)
    (hown : ActSignals t g l) (howing : l.Owing) (hl : l.Returned) :
    g.state.runDoneOnce = .done := by
  rcases howing with ⟨pc, rfl, hwon⟩ | ⟨reason, pc, rfl⟩
  · cases pc with
    | returned result =>
        cases result with
        | won => exact hinv.stopReturned hown
        | _ => exact hwon.elim
    | _ => exact hl.elim
  · cases pc with
    | returned => exact hinv.callbackReturned hown.2
    | _ => exact hl.elim

/-- From where some thread owes the close, the close can be made while `t` stays
parked. -/
theorem can_close {t w : ι} (hreach : (machine ι shutdownFn).Reachable c)
    (hpark : c.threads t = .run .park) (howing : (c.threads w).Owing) :
    (machine ι shutdownFn).CanReach c fun d =>
      d.threads t = .run .park ∧ d.shared.state.runDoneOnce = .done := by
  refine Machine.canReach_of_rank
    (I := fun d => d.threads t = .run .park ∧ (d.threads w).Owing) (stepsLeft w) ?_ hreach
    ⟨hpark, howing⟩
  intro d hreach hd hopen
  obtain ⟨hpark, howing⟩ := hd
  obtain ⟨⟨hinv, _⟩, hthreads⟩ := owes_holds hreach
  have hl : ¬ (d.threads w).Returned := by
    intro hl
    exact hopen ⟨hpark, done_of_returned hinv (hthreads w).1 howing hl⟩
  obtain ⟨u, move, e, hnext, hends, hless, hu⟩ := ends_next hreach howing.ends hl
  have hne : t ≠ u := by
    rintro rfl
    rcases hu with rfl | hclosing
    · rw [hpark] at howing
      exact howing.ends
    · rw [hpark] at hclosing
      exact hclosing
  refine ⟨(u, move), e, hnext, .inr ⟨⟨?_, ?_⟩, hless⟩⟩
  · rw [(Program.next_eq_some hnext).2 t hne, hpark]
  · rcases eq_or_ne w u with rfl | hw
    · exact (actStep_of_next hnext).owing howing
    · rw [(Program.next_eq_some hnext).2 w hw]
      exact howing

/-- At an open gate a new call of `llingr_stop` comes to owe the close. -/
theorem can_claim {t u : ι} (hpark : c.threads t = .run .park) (hidle : c.threads u = .idle)
    (hopen : c.shared.state.stopGateOpen = true)
    (hconsumer : c.shared.state.consumer.isSome = true) :
    (machine ι shutdownFn).CanReach c fun d =>
      d.threads t = .run .park ∧ (d.threads u).Owing := by
  have hne : t ≠ u := by
    rintro rfl
    rw [hpark] at hidle
    cases hidle
  obtain ⟨consumer, hsome⟩ := Option.isSome_iff_exists.mp hconsumer
  -- three steps: the call, its load of the consumer, and the swap that wins
  have hcall : advance u c.shared (c.threads u) (.call .stop) = some (c.shared, .stop .load) := by
    rw [hidle]
    rfl
  obtain ⟨d, hcall, hd, hdu, hdt⟩ := Program.exists_next (P := program ι shutdownFn) hcall
  have hload : advance u d.shared (d.threads u) .step =
      some (c.shared, .stop (.cas c.shared.state.cancel.isSome)) := by
    rw [hd, hdu]
    simp [advance, llingrStop, hsome]
  obtain ⟨e, hload, he, heu, het⟩ := Program.exists_next (P := program ι shutdownFn) hload
  have hcas : ∃ g', advance u e.shared (e.threads u) .step =
      some (g', .stop (.shutdown c.shared.state.cancel.isSome)) := by
    rw [he, heu]
    simp [advance, llingrStop, hopen]
  obtain ⟨g', hcas⟩ := hcas
  obtain ⟨f, hcas, _, hfu, hft⟩ := Program.exists_next (P := program ι shutdownFn) hcas
  refine .after_step hcall (.after_step hload (.after_step hcas (Machine.canReach_here ⟨?_, ?_⟩)))
  · rw [hft t hne, het t hne, hdt t hne, hpark]
  · rw [hfu]
    exact .inl ⟨_, rfl, trivial⟩

/-- A parked `llingr_run` can be let go, by a stop if nobody is stopping yet. -/
theorem can_unpark {t u : ι} (hreach : (machine ι shutdownFn).Reachable c)
    (hpark : c.threads t = .run .park) (hidle : c.threads u = .idle) :
    (machine ι shutdownFn).CanReach c fun d => d.threads t = .run (.returned 0) := by
  obtain ⟨⟨_, hgate⟩, hthreads⟩ := owes_holds hreach
  obtain ⟨hopened, hconsumer⟩ := (hthreads t).2.gate (.inr hpark)
  -- first somebody closes `runDone`: a stop that is still to come, or whoever shut the gate
  have hclose : (machine ι shutdownFn).CanReach c fun d =>
      d.threads t = .run .park ∧ d.shared.state.runDoneOnce = .done := by
    have howed : ∀ w, (c.threads w).Owing → (machine ι shutdownFn).CanReach c fun d =>
        d.threads t = .run .park ∧ d.shared.state.runDoneOnce = .done :=
      fun w => can_close hreach hpark
    cases hopen : c.shared.state.stopGateOpen with
    | true =>
        refine (can_claim hpark hidle hopen hconsumer).trans hreach ?_
        rintro d hreach ⟨hpark, howing⟩
        exact can_close hreach hpark howing
    | false =>
        rcases hgate hopened hopen with hwinner | hexit
        · obtain ⟨w, hw⟩ := Option.isSome_iff_exists.mp hwinner
          rcases (hthreads w).2.winner hw with ⟨pc, hpc, hwon⟩ | hdone
          · exact howed w (owing_of_frame hpc hwon)
          · exact Machine.canReach_here ⟨hpark, hdone⟩
        · obtain ⟨⟨w, reason⟩, hw⟩ := Option.isSome_iff_exists.mp hexit
          obtain ⟨pc, hpc⟩ := ((hthreads w).2.exit reason).mp hw
          exact howed w (.inr ⟨reason, pc, hpc⟩)
  refine hclose.trans hreach ?_
  rintro d hreach ⟨hpark, hdone⟩
  obtain ⟨⟨hinv, _⟩, _⟩ := owes_holds hreach
  obtain ⟨done, hchan, hpos⟩ := hinv.closed_of_done hdone
  -- then the select takes it
  have hstep : ∃ g', advance t d.shared (d.threads t) .step = some (g', .run (.returned 0)) := by
    rw [hpark]
    simp [advance, llingrRun, hchan, hpos]
  obtain ⟨g', hstep⟩ := hstep
  obtain ⟨e, hnext, _, hown, _⟩ := Program.exists_next (P := program ι shutdownFn) hstep
  exact .after_step hnext (Machine.canReach_here hown)

/-- What can always still happen. -/
structure NothingWaits (shutdownFn : Bool) (c : Cfg ι) : Prop where
  /-- A stop, an emergency stop and the shutdown callback can return. -/
  returns : ∀ t, (c.threads t).Ends →
    (machine ι shutdownFn).CanReach c fun d => (d.threads t).Returned
  /-- A thread that waits for the once waits for one that has a single step left. -/
  waits : ∀ w, c.shared.state.runDoneOnce = .running w → (c.threads w).Closing ∧
    ∃ d, (machine ι shutdownFn).next c (w, .step) = some d ∧ d.shared.state.runDoneOnce = .done
  /-- A parked `llingr_run` can return 0, as long as a stop may still be called. -/
  released : ∀ t u, c.threads t = .run .park → c.threads u = .idle →
    (machine ι shutdownFn).CanReach c fun d => d.threads t = .run (.returned 0)

/-- **No deadlock.**  In no reachable state does a call of the bridge wait for ever. -/
theorem nothing_waits (hreach : (machine ι shutdownFn).Reachable c) :
    NothingWaits shutdownFn c where
  returns := fun _ => can_return hreach
  waits := by
    intro w hw
    obtain ⟨_, hthreads⟩ := owes_holds hreach
    have hclosing : (c.threads w).Closing := by
      by_contra hnot
      exact (hthreads w).2.running hnot hw
    obtain ⟨g', l', hstep, hdone⟩ := closing_next (t := w) (g := c.shared) hclosing
    obtain ⟨d, hnext, rfl, _⟩ := Program.exists_next (P := program ι shutdownFn) hstep
    exact ⟨hclosing, d, hnext, hdone⟩
  released := fun _ _ => can_unpark hreach

/-- An exit is delivered before the gate is opened; a stop then wins the opened gate
and closes `runDone` while the callback waits for the once. -/
def stopAfterExitRun : List (ℕ × Move) :=
  [(0, .call .init), (1, .call .run), (1, .step), (9, .callback none), (9, .step), (1, .step),
    (1, .engine .returned), (2, .call .stop), (2, .step), (2, .step), (2, .step),
    (2, .engine .failed), (2, .step), (2, .step), (2, .step), (9, .step), (9, .step)]

theorem nothing_waits_stopAfterExit :
    ∃ c, (machine ℕ false).exec (machine ℕ false).start stopAfterExitRun = some c ∧
      c.threads 1 = .run .park ∧ c.threads 2 = .stop (.signal .close) ∧
      c.threads 9 = .callback none (.signal .enter) ∧ NothingWaits false c :=
  ⟨_, rfl, rfl, rfl, rfl, nothing_waits ⟨stopAfterExitRun, rfl⟩⟩

end LlingrKafka.Lifecycle
