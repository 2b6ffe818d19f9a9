import LlingrKafka.Bridge.Init

/-!
# `llingr_init` is atomic and single-shot

`InitStep` reads the steps of `llingr_init` back as a relation.  The invariant
gives each program counter what the call holding `initMu` knows there
(`FrameOwn`): nothing is published before the one store of all four fields, and
once it is made the call has no way left to return anything but 0.  Other callers
cannot disturb that, since every write is made under `initMu` (`InitLe`).
-/

namespace LlingrKafka.Bridge

variable {ι : Type*}

/-- The steps of `llingr_init`. -/
inductive InitStep (t : ι) (g : InitShared ι) (frame : InitFrame) : InitShared ι → InitFrame → Prop
  | lock (hpc : frame.pc = .lock) (hfree : g.initMu = none) :
      InitStep t g frame { g with initMu := some t } { frame with pc := .check }
  | already (hpc : frame.pc = .check) (hsome : g.state.consumer.isSome = true) :
      InitStep t g frame g
        { frame with text := some alreadyInitText, pc := .unlock (.returns ErrCode.alreadyInit.rc) }
  | fresh (hpc : frame.pc = .check) (hnone : g.state.consumer = none) :
      InitStep t g frame g { frame with pc := .parse }
  | parsed (hpc : frame.pc = .parse) : InitStep t g frame g { frame with pc := .log }
  | parseFailed (hpc : frame.pc = .parse) (err : BridgeError) :
      InitStep t g frame g
        { frame with text := some err.msg, pc := .unlock (.returns err.code.rc) }
  | logged (hpc : frame.pc = .log) : InitStep t g frame g { frame with pc := .newContext }
  | newContext (hpc : frame.pc = .newContext) :
      InitStep t g frame g { frame with cancel := true, ctx := some .live, pc := .build }
  | built (hpc : frame.pc = .build) : InitStep t g frame g { frame with pc := .publish }
  | buildFailed (hpc : frame.pc = .build) (err : BridgeError) :
      InitStep t g frame g { frame with pc := .abandon err }
  | panicked (hpc : frame.pc = .parse ∨ frame.pc = .log ∨ frame.pc = .build) (value : String) :
      InitStep t g frame g { frame with pc := .unlock (.panics value) }
  | abandon (err : BridgeError) (hpc : frame.pc = .abandon err) :
      InitStep t g frame g { frame with
        ctx := some .cancelled
        text := some err.msg
        pc := .unlock (.returns err.code.rc) }
  | publish (hpc : frame.pc = .publish) :
      InitStep t g frame { g with state := g.state.publish t } { frame with pc := .sealing }
  | sealing (hpc : frame.pc = .sealing) :
      InitStep t g frame { g with registration := g.registration.sealCallbacks }
        { frame with pc := .disown }
  | disown (hpc : frame.pc = .disown) :
      InitStep t g frame g { frame with cancel := false, pc := .unlock (.returns 0) }
  | unlock (ending : Ending) (hpc : frame.pc = .unlock ending) :
      InitStep t g frame { g with initMu := none } { frame with pc := .recover ending }
  | ret (rc : ℤ) (hpc : frame.pc = .recover (.returns rc)) :
      InitStep t g frame g { frame with pc := .returned rc }
  | recover (value : String) (hpc : frame.pc = .recover (.panics value)) :
      InitStep t g frame g { frame with
        ctx := if frame.cancel then some .cancelled else frame.ctx
        text := some ("invalid configuration: " ++ value)
        pc := .returned ErrCode.badOption.rc }

theorem llingrInit_cases {t : ι} {g g' : InitShared ι} {frame frame' : InitFrame} {move : InitMove}
    (h : llingrInit t g frame move = some (g', frame')) : InitStep t g frame g' frame' := by
  -- one case for each place where a call can stand and each thing that can happen there
  unfold llingrInit at h
  split at h
  case h_1 hpc =>
    split at h
    · rename_i hfree
      obtain ⟨rfl, rfl⟩ := Prod.mk.inj (Option.some_inj.mp h)
      exact .lock hpc hfree
    · cases h
  case h_2 hpc =>
    split at h
    · obtain ⟨rfl, rfl⟩ := Prod.mk.inj (Option.some_inj.mp h)
      exact .already hpc (by simp [*])
    · obtain ⟨rfl, rfl⟩ := Prod.mk.inj (Option.some_inj.mp h)
      exact .fresh hpc ‹_›
  case h_3 hpc =>
    obtain ⟨rfl, rfl⟩ := Prod.mk.inj (Option.some_inj.mp h)
    exact .parsed hpc
  case h_4 err hpc =>
    obtain ⟨rfl, rfl⟩ := Prod.mk.inj (Option.some_inj.mp h)
    exact .parseFailed hpc err
  case h_5 value hpc =>
    obtain ⟨rfl, rfl⟩ := Prod.mk.inj (Option.some_inj.mp h)
    exact .panicked (.inl hpc) value
  case h_6 hpc =>
    obtain ⟨rfl, rfl⟩ := Prod.mk.inj (Option.some_inj.mp h)
    exact .logged hpc
  case h_7 value hpc =>
    obtain ⟨rfl, rfl⟩ := Prod.mk.inj (Option.some_inj.mp h)
    exact .panicked (.inr (.inl hpc)) value
  case h_8 hpc =>
    obtain ⟨rfl, rfl⟩ := Prod.mk.inj (Option.some_inj.mp h)
    exact .newContext hpc
  case h_9 hpc =>
    obtain ⟨rfl, rfl⟩ := Prod.mk.inj (Option.some_inj.mp h)
    exact .built hpc
  case h_10 err hpc =>
    obtain ⟨rfl, rfl⟩ := Prod.mk.inj (Option.some_inj.mp h)
    exact .buildFailed hpc err
  case h_11 value hpc =>
    obtain ⟨rfl, rfl⟩ := Prod.mk.inj (Option.some_inj.mp h)
    exact .panicked (.inr (.inr hpc)) value
  case h_12 err hpc =>
    obtain ⟨rfl, rfl⟩ := Prod.mk.inj (Option.some_inj.mp h)
    exact .abandon err hpc
  case h_13 hpc =>
    obtain ⟨rfl, rfl⟩ := Prod.mk.inj (Option.some_inj.mp h)
    exact .publish hpc
  case h_14 hpc =>
    obtain ⟨rfl, rfl⟩ := Prod.mk.inj (Option.some_inj.mp h)
    exact .sealing hpc
  case h_15 hpc =>
    obtain ⟨rfl, rfl⟩ := Prod.mk.inj (Option.some_inj.mp h)
    exact .disown hpc
  case h_16 ending hpc =>
    obtain ⟨rfl, rfl⟩ := Prod.mk.inj (Option.some_inj.mp h)
    exact .unlock ending hpc
  case h_17 rc hpc =>
    obtain ⟨rfl, rfl⟩ := Prod.mk.inj (Option.some_inj.mp h)
    exact .ret rc hpc
  case h_18 value hpc =>
    obtain ⟨rfl, rfl⟩ := Prod.mk.inj (Option.some_inj.mp h)
    exact .recover value hpc
  case h_19 => cases h

/-! ## The invariant -/

/-- The consumer, its cancel function, its broker release and an open `runDone` of
call `t` are all published, and nothing else has touched the record. -/
def Published (t : ι) (g : InitShared ι) : Prop := g.state = BridgeState.zero.publish t

/-- Nothing is published and registration is open. -/
def Unpublished (g : InitShared ι) : Prop :=
  g.state = .zero ∧ g.registration.callbacksSealed = false

structure InitInv (g : InitShared ι) : Prop where
  state : g.state = .zero ∨ ∃ t, Published t g
  sealed : g.registration.callbacksSealed = true → ∃ t, Published t g

/-- What is settled once the body of call `t` is left with `rc`. -/
def Settled (t : ι) (g : InitShared ι) (frame : InitFrame) (rc : ℤ) : Prop :=
  (rc = 0 → Published t g ∧ g.registration.callbacksSealed = true ∧ frame.ctx = some .live) ∧
    (rc ≠ 0 → frame.ctx ≠ some .live ∧ frame.text.isSome = true)

/-- What call `t` knows at each of its program counters. -/
def FrameOwn (t : ι) (g : InitShared ι) (frame : InitFrame) : Prop :=
  match frame.pc with
  | .lock => g.initMu ≠ some t ∧ frame.cancel = false ∧ frame.ctx = none
  | .check => g.initMu = some t ∧ frame.cancel = false ∧ frame.ctx = none
  | .parse | .log | .newContext =>
      g.initMu = some t ∧ Unpublished g ∧ frame.cancel = false ∧ frame.ctx = none
  | .build | .abandon _ | .publish =>
      g.initMu = some t ∧ Unpublished g ∧ frame.cancel = true ∧ frame.ctx = some .live
  | .sealing => g.initMu = some t ∧ Published t g ∧ frame.ctx = some .live
  | .disown => g.initMu = some t ∧ Published t g ∧ g.registration.callbacksSealed = true ∧
      frame.ctx = some .live
  | .unlock (.returns rc) => g.initMu = some t ∧ Settled t g frame rc
  | .unlock (.panics _) => g.initMu = some t ∧ (frame.cancel = true ∨ frame.ctx = none)
  | .recover (.returns rc) | .returned rc => g.initMu ≠ some t ∧ Settled t g frame rc
  | .recover (.panics _) => g.initMu ≠ some t ∧ (frame.cancel = true ∨ frame.ctx = none)

/-- A thread's part in `llingr_init`. -/
def InitOwn (t : ι) (g : InitShared ι) : InitAct → Prop
  | .call frame => FrameOwn t g frame
  | _ => g.initMu ≠ some t

/-- What a step of `t` leaves to the other callers. -/
structure InitLe (t : ι) (g g' : InitShared ι) : Prop where
  held : ∀ u, u ≠ t → g.initMu = some u → g'.initMu = some u ∧ g'.state = g.state ∧
    g'.registration.callbacksSealed = g.registration.callbacksSealed
  notHeld : ∀ u, u ≠ t → g.initMu ≠ some u → g'.initMu ≠ some u
  published : ∀ u, Published u g → Published u g'
  sealed : g.registration.callbacksSealed = true → g'.registration.callbacksSealed = true

theorem InitLe.refl (t : ι) (g : InitShared ι) : InitLe t g g where
  held := by intro u _ hu; exact ⟨hu, rfl, rfl⟩
  notHeld := by intro u _ hu; exact hu
  published := by intro u hu; exact hu
  sealed := id

/-- The holder of the lock disturbs nobody by writing, as long as what is published
stays so. -/
theorem InitLe.of_holder {t : ι} {g g' : InitShared ι} (hholder : g.initMu = some t)
    (hmu : g'.initMu = none ∨ g'.initMu = some t)
    (hpublished : ∀ u, Published u g → Published u g')
    (hsealed : g.registration.callbacksSealed = true → g'.registration.callbacksSealed = true) :
    InitLe t g g' where
  held := by
    intro u hu hother
    exact absurd (Program.eq_of_owner hholder hother) hu
  notHeld := by
    intro u hu _
    exact Program.not_owner hu hmu
  published := hpublished
  sealed := hsealed

theorem Published.not_zero {t : ι} {g : InitShared ι} (h : Published t g) : g.state ≠ .zero := by
  intro hzero
  rw [Published, hzero] at h
  exact absurd (congrArg BridgeState.consumer h) (by simp [BridgeState.zero, BridgeState.publish])

theorem Published.consumer {t : ι} {g : InitShared ι} (h : Published t g) :
    g.state.consumer = some t := by
  rw [h]
  rfl

/-- A free slot for the consumer means that nothing was ever published. -/
theorem InitInv.unpublished {g : InitShared ι} (hinv : InitInv g)
    (hnone : g.state.consumer = none) : Unpublished g := by
  have hno : ¬ ∃ t, Published t g := by
    rintro ⟨t, hpublished⟩
    rw [hpublished.consumer] at hnone
    cases hnone
  refine ⟨hinv.state.resolve_right hno, ?_⟩
  by_cases hsealed : g.registration.callbacksSealed = true
  · exact absurd (hinv.sealed hsealed) hno
  · exact Bool.eq_false_iff.mpr hsealed

theorem settled_of_error {t : ι} {g : InitShared ι} {frame : InitFrame} {code : ErrCode}
    {text : String} (hctx : frame.ctx ≠ some .live) (htext : frame.text = some text) :
    Settled t g frame code.rc :=
  ⟨fun hzero => absurd hzero code.rc_ne_zero, fun _ => ⟨hctx, by simp [htext]⟩⟩

/-- A step of a call keeps the invariant and its own part of it. -/
theorem initStep_own {t : ι} {g g' : InitShared ι} {frame frame' : InitFrame} (hinv : InitInv g)
    (hown : FrameOwn t g frame) (h : InitStep t g frame g' frame') :
    InitInv g' ∧ FrameOwn t g' frame' ∧ InitLe t g g' := by
  cases h with
  | lock hpc hfree =>
      simp only [FrameOwn, hpc] at hown
      refine ⟨{ hinv with }, ⟨rfl, hown.2⟩, ⟨?_, ?_, fun u hu => hu, id⟩⟩
      · intro u _ hheld
        rw [hfree] at hheld
        cases hheld
      · intro u hu _
        exact Program.not_owner hu (.inr rfl)
  | already hpc hsome =>
      simp only [FrameOwn, hpc] at hown
      refine ⟨hinv, ⟨hown.1, settled_of_error ?_ rfl⟩, .refl t g⟩
      simp [hown.2.2]
  | fresh hpc hnone =>
      simp only [FrameOwn, hpc] at hown
      exact ⟨hinv, ⟨hown.1, hinv.unpublished hnone, hown.2⟩, .refl t g⟩
  | parsed hpc =>
      simp only [FrameOwn, hpc] at hown
      exact ⟨hinv, hown, .refl t g⟩
  | parseFailed hpc err =>
      simp only [FrameOwn, hpc] at hown
      refine ⟨hinv, ⟨hown.1, settled_of_error ?_ rfl⟩, .refl t g⟩
      simp [hown.2.2.2]
  | logged hpc =>
      simp only [FrameOwn, hpc] at hown
      exact ⟨hinv, hown, .refl t g⟩
  | newContext hpc =>
      simp only [FrameOwn, hpc] at hown
      exact ⟨hinv, ⟨hown.1, hown.2.1, rfl, rfl⟩, .refl t g⟩
  | built hpc =>
      simp only [FrameOwn, hpc] at hown
      exact ⟨hinv, hown, .refl t g⟩
  | buildFailed hpc err =>
      simp only [FrameOwn, hpc] at hown
      exact ⟨hinv, hown, .refl t g⟩
  -- a panic in the build has a context to cancel, the earlier ones have none
  | panicked hpc value =>
      rcases hpc with hpc | hpc | hpc
      · simp only [FrameOwn, hpc] at hown
        exact ⟨hinv, ⟨hown.1, .inr hown.2.2.2⟩, .refl t g⟩
      · simp only [FrameOwn, hpc] at hown
        exact ⟨hinv, ⟨hown.1, .inr hown.2.2.2⟩, .refl t g⟩
      · simp only [FrameOwn, hpc] at hown
        exact ⟨hinv, ⟨hown.1, .inl hown.2.2.1⟩, .refl t g⟩
  | abandon err hpc =>
      simp only [FrameOwn, hpc] at hown
      refine ⟨hinv, ⟨hown.1, settled_of_error ?_ rfl⟩, .refl t g⟩
      simp
  -- under the mutex nothing was published, so the record is this call's alone
  | publish hpc =>
      simp only [FrameOwn, hpc] at hown
      obtain ⟨hheld, ⟨hzero, hsealed⟩, _, hlive⟩ := hown
      have hpublished : Published t { g with state := g.state.publish t } := by
        simp only [Published, hzero]
      refine ⟨⟨.inr ⟨t, hpublished⟩, fun _ => ⟨t, hpublished⟩⟩, ⟨hheld, hpublished, hlive⟩,
        .of_holder hheld (.inr hheld) ?_ id⟩
      intro u hu
      exact absurd hzero hu.not_zero
  | sealing hpc =>
      simp only [FrameOwn, hpc] at hown
      obtain ⟨hheld, hpublished, hlive⟩ := hown
      exact ⟨⟨hinv.state, fun _ => ⟨t, hpublished⟩⟩, ⟨hheld, hpublished, rfl, hlive⟩,
        .of_holder hheld (.inr hheld) (fun u hu => hu) fun _ => rfl⟩
  | disown hpc =>
      simp only [FrameOwn, hpc] at hown
      obtain ⟨hheld, hpublished, hsealed, hlive⟩ := hown
      exact ⟨hinv, ⟨hheld, fun _ => ⟨hpublished, hsealed, hlive⟩, fun hne => absurd rfl hne⟩,
        .refl t g⟩
  | unlock ending hpc =>
      have hnone : ∀ u, (none : Option ι) ≠ some u := by
        intro u hu
        cases hu
      have hfree : g.initMu = some t → InitLe t g { g with initMu := none } :=
        fun hheld => .of_holder hheld (.inl rfl) (fun u hu => hu) id
      cases ending with
      | returns rc =>
          simp only [FrameOwn, hpc] at hown
          exact ⟨{ hinv with }, ⟨hnone t, hown.2⟩, hfree hown.1⟩
      | panics value =>
          simp only [FrameOwn, hpc] at hown
          exact ⟨{ hinv with }, ⟨hnone t, hown.2⟩, hfree hown.1⟩
  | ret rc hpc =>
      simp only [FrameOwn, hpc] at hown
      exact ⟨hinv, hown, .refl t g⟩
  -- the deferred recover cancels the context of a call that did not give it away
  | recover value hpc =>
      simp only [FrameOwn, hpc] at hown
      obtain ⟨hnot, hcancel⟩ := hown
      refine ⟨hinv, ⟨hnot, settled_of_error ?_ rfl⟩, .refl t g⟩
      rcases hcancel with hcancel | hnone
      · simp [hcancel]
      · simp [hnone]

/-- A move of a thread. -/
theorem initAct_own {t : ι} {g g' : InitShared ι} {l l' : InitAct} {move : InitMove}
    (hinv : InitInv g) (hown : InitOwn t g l) (h : initStep t g l move = some (g', l')) :
    InitInv g' ∧ InitOwn t g' l' ∧ InitLe t g g' := by
  unfold initStep at h
  split at h
  · obtain ⟨rfl, rfl⟩ := Prod.mk.inj (Option.some_inj.mp h)
    exact ⟨hinv, ⟨hown, rfl, rfl⟩, .refl t g⟩
  · obtain ⟨rfl, rfl⟩ := Prod.mk.inj (Option.some_inj.mp h)
    refine ⟨⟨hinv.state, fun hsealed => hinv.sealed ?_⟩, hown, ⟨?_, ?_, fun u hu => hu, ?_⟩⟩
    · simpa using hsealed
    · intro u _ hheld
      exact ⟨hheld, rfl, by simp⟩
    · intro u _ hnot
      exact hnot
    · intro hsealed
      simpa using hsealed
  · simp only [Option.map_eq_some_iff, Prod.mk.injEq] at h
    obtain ⟨⟨g', frame'⟩, hstep, rfl, rfl⟩ := h
    exact initStep_own hinv hown (llingrInit_cases hstep)
  · cases h

theorem Settled.mono {t u : ι} {g g' : InitShared ι} {frame : InitFrame} {rc : ℤ}
    (hle : InitLe t g g') (h : Settled u g frame rc) : Settled u g' frame rc := by
  refine ⟨fun hzero => ?_, h.2⟩
  obtain ⟨hpublished, hsealed, hlive⟩ := h.1 hzero
  exact ⟨hle.published u hpublished, hle.sealed hsealed, hlive⟩

theorem InitOwn.mono {t u : ι} {g g' : InitShared ι} {l : InitAct} (hu : u ≠ t)
    (hle : InitLe t g g') (h : InitOwn u g l) : InitOwn u g' l := by
  have hunpublished : g.initMu = some u → Unpublished g → Unpublished g' := by
    rintro hheld ⟨hzero, hopen⟩
    obtain ⟨_, hstate, hsealed⟩ := hle.held u hu hheld
    exact ⟨hstate.trans hzero, hsealed.trans hopen⟩
  -- what a call knows is of the mutex it holds, or of what is published, which nobody takes
  -- back
  cases l with
  | call frame =>
      unfold InitOwn FrameOwn at h ⊢
      cases hpc : frame.pc with
      | lock =>
          simp only [hpc] at h ⊢
          exact ⟨hle.notHeld u hu h.1, h.2⟩
      | check =>
          simp only [hpc] at h ⊢
          exact ⟨(hle.held u hu h.1).1, h.2⟩
      | sealing =>
          simp only [hpc] at h ⊢
          exact ⟨(hle.held u hu h.1).1, hle.published u h.2.1, h.2.2⟩
      | disown =>
          simp only [hpc] at h ⊢
          exact ⟨(hle.held u hu h.1).1, hle.published u h.2.1, hle.sealed h.2.2.1, h.2.2.2⟩
      | unlock ending =>
          cases ending with
          | returns rc =>
              simp only [hpc] at h ⊢
              exact ⟨(hle.held u hu h.1).1, h.2.mono hle⟩
          | panics value =>
              simp only [hpc] at h ⊢
              exact ⟨(hle.held u hu h.1).1, h.2⟩
      | recover ending =>
          cases ending with
          | returns rc =>
              simp only [hpc] at h ⊢
              exact ⟨hle.notHeld u hu h.1, h.2.mono hle⟩
          | panics value =>
              simp only [hpc] at h ⊢
              exact ⟨hle.notHeld u hu h.1, h.2⟩
      | returned rc =>
          simp only [hpc] at h ⊢
          exact ⟨hle.notHeld u hu h.1, h.2.mono hle⟩
      | _ =>
          simp only [hpc] at h ⊢
          exact ⟨(hle.held u hu h.1).1, hunpublished h.1 h.2.1, h.2.2⟩
  | _ => exact hle.notHeld u hu h

variable [DecidableEq ι] {labels : List (ι × InitMove)} {c d : InitCfg ι}

/-- The invariant holds of every reachable state. -/
theorem init_holds (hreach : (initMachine ι).Reachable c) : Program.Holds InitInv InitOwn c := by
  obtain ⟨labels, hrun⟩ := hreach
  have hstart : Program.Holds InitInv InitOwn (initMachine ι).start := by
    refine ⟨⟨.inl rfl, fun hsealed => ?_⟩, fun t => ?_⟩
    · cases hsealed
    · intro hheld
      cases hheld
  refine Program.inv_of_own_and_others (G := fun _ _ _ _ => True) ?_ ?_ hstart
    (Machine.guarded_of_forall (fun _ _ => trivial) _ labels) hrun
  · intro t g l move g' l' hinv hown _ hstep
    obtain ⟨hinv', hown', _⟩ := initAct_own hinv hown hstep
    exact ⟨hinv', hown'⟩
  · intro t u g l m move g' l' hu hinv hown hother _ hstep
    obtain ⟨_, _, hle⟩ := initAct_own hinv hown hstep
    exact hother.mono hu hle

/-! ## What one call does along a run -/

/-- The call has published. -/
def InitAct.Succeeding : InitAct → Prop
  | .call frame => frame.pc = .sealing ∨ frame.pc = .disown ∨ frame.pc = .unlock (.returns 0) ∨
      frame.pc = .recover (.returns 0) ∨ frame.pc = .returned 0
  | _ => False

/-- The thread has built nothing: its call, if it makes one, has no context and is
either before its look at `state.consumer` or on the way back with `errAlreadyInit`. -/
def InitAct.BuiltNothing : InitAct → Prop
  | .call frame => frame.ctx = none ∧ (frame.pc = .lock ∨ frame.pc = .check ∨
      frame.pc = .unlock (.returns ErrCode.alreadyInit.rc) ∨
      frame.pc = .recover (.returns ErrCode.alreadyInit.rc) ∨
      frame.pc = .returned ErrCode.alreadyInit.rc)
  | _ => True

omit [DecidableEq ι] in
/-- A step writes the published fields or the seal only on the way to success. -/
theorem InitStep.writes {t : ι} {g g' : InitShared ι} {frame frame' : InitFrame}
    (h : InitStep t g frame g' frame') :
    (g'.state = g.state ∧ g'.registration = g.registration) ∨ (InitAct.call frame').Succeeding := by
  cases h with
  | publish hpc => exact .inr (.inl rfl)
  | sealing hpc => exact .inr (.inr (.inl rfl))
  | _ => exact .inl ⟨rfl, rfl⟩

omit [DecidableEq ι] in
/-- A call that has published cannot fail any more. -/
theorem InitStep.succeeding {t : ι} {g g' : InitShared ι} {frame frame' : InitFrame}
    (h : InitStep t g frame g' frame') (hsucceeding : (InitAct.call frame).Succeeding) :
    (InitAct.call frame').Succeeding := by
  unfold InitAct.Succeeding at hsucceeding
  cases h with
  | sealing hpc => exact .inr (.inl rfl)
  | disown hpc => exact .inr (.inr (.inl rfl))
  | unlock ending hpc =>
      simp only [hpc, reduceCtorEq, InitPc.unlock.injEq, false_or, or_false] at hsucceeding
      rw [hsucceeding]
      exact .inr (.inr (.inr (.inl rfl)))
  | ret rc hpc =>
      simp only [hpc, reduceCtorEq, InitPc.recover.injEq, Ending.returns.injEq, false_or,
        or_false] at hsucceeding
      rw [hsucceeding]
      exact .inr (.inr (.inr (.inr rfl)))
  | panicked hpc value => rcases hpc with hpc | hpc | hpc <;> simp [hpc] at hsucceeding
  | _ => simp_all

omit [DecidableEq ι] in
/-- Once a consumer is published, a call only reports that. -/
theorem InitStep.builtNothing {t : ι} {g g' : InitShared ι} {frame frame' : InitFrame}
    (h : InitStep t g frame g' frame') (hsome : g.state.consumer.isSome = true)
    (hnothing : (InitAct.call frame).BuiltNothing) : (InitAct.call frame').BuiltNothing := by
  obtain ⟨hctx, hpc'⟩ := hnothing
  cases h with
  | lock hpc hfree => exact ⟨hctx, .inr (.inl rfl)⟩
  | already hpc hsome => exact ⟨hctx, .inr (.inr (.inl rfl))⟩
  | fresh hpc hnone => simp [hnone] at hsome
  | unlock ending hpc =>
      simp only [hpc, reduceCtorEq, InitPc.unlock.injEq, false_or, or_false] at hpc'
      rw [hpc']
      exact ⟨hctx, .inr (.inr (.inr (.inl rfl)))⟩
  | ret rc hpc =>
      simp only [hpc, reduceCtorEq, InitPc.recover.injEq, Ending.returns.injEq, false_or,
        or_false] at hpc'
      rw [hpc']
      exact ⟨hctx, .inr (.inr (.inr (.inr rfl)))⟩
  | panicked hpc value => rcases hpc with hpc | hpc | hpc <;> simp [hpc] at hpc'
  | _ => simp_all

theorem initStep_of_next {t : ι} {move : InitMove}
    (h : (initMachine ι).next c (t, move) = some d) :
    initStep t c.shared (c.threads t) move = some (d.shared, d.threads t) :=
  (Program.next_eq_some h).1

omit [DecidableEq ι] in
/-- A move of a thread is a step of its call, its entry, or a registration. -/
theorem initStep_cases {t : ι} {g g' : InitShared ι} {l l' : InitAct} {move : InitMove}
    (h : initStep t g l move = some (g', l')) :
    (∃ frame frame', l = .call frame ∧ l' = .call frame' ∧ InitStep t g frame g' frame') ∨
      (l = .idle ∧ l' = .call .entered ∧ g' = g) ∨
      ∃ mutate, l = .idle ∧ l' = .registered (g.registration.setCallback mutate).2 ∧
        g' = { g with registration := (g.registration.setCallback mutate).1 } := by
  unfold initStep at h
  split at h
  · obtain ⟨rfl, rfl⟩ := Prod.mk.inj (Option.some_inj.mp h)
    exact .inr (.inl ⟨rfl, rfl, rfl⟩)
  · obtain ⟨rfl, rfl⟩ := Prod.mk.inj (Option.some_inj.mp h)
    exact .inr (.inr ⟨_, rfl, rfl, rfl⟩)
  · simp only [Option.map_eq_some_iff, Prod.mk.injEq] at h
    obtain ⟨⟨g', frame'⟩, hstep, rfl, rfl⟩ := h
    exact .inl ⟨_, frame', rfl, rfl, llingrInit_cases hstep⟩
  · cases h

theorem succeeding_of_exec {t : ι} (hsucceeding : (c.threads t).Succeeding)
    (hrun : (initMachine ι).exec c labels = some d) : (d.threads t).Succeeding := by
  refine Program.local_of_exec (J := fun _ => True) (fun _ _ _ _ _ => trivial) ?_ trivial
    hsucceeding hrun
  intro e move g' l' _ hbefore hstep
  rcases initStep_cases hstep with ⟨frame, frame', hlocal, rfl, hcall⟩ | ⟨hidle, _⟩ | ⟨_, hidle, _⟩
  · rw [hlocal] at hbefore
    exact hcall.succeeding hbefore
  · rw [hidle] at hbefore
    exact hbefore.elim
  · rw [hidle] at hbefore
    exact hbefore.elim

/-- A published consumer stays. -/
theorem published_next {t : ι} {label : ι × InitMove} (hreach : (initMachine ι).Reachable c)
    (hpublished : Published t c.shared) (hnext : (initMachine ι).next c label = some d) :
    Published t d.shared := by
  obtain ⟨u, move⟩ := label
  obtain ⟨hinv, hown⟩ := init_holds hreach
  obtain ⟨_, _, hle⟩ := initAct_own hinv (hown u) (initStep_of_next hnext)
  exact hle.published t hpublished

theorem builtNothing_of_exec {t u : ι} (hreach : (initMachine ι).Reachable c)
    (hpublished : Published u c.shared) (hidle : c.threads t = .idle)
    (hrun : (initMachine ι).exec c labels = some d) : (d.threads t).BuiltNothing := by
  refine Program.local_of_exec
    (J := fun e => (initMachine ι).Reachable e ∧ Published u e.shared) ?_ ?_
    ⟨hreach, hpublished⟩ (by rw [hidle]; trivial) hrun
  · rintro e label f ⟨hreach, hpublished⟩ hnext
    exact ⟨hreach.next hnext, published_next hreach hpublished hnext⟩
  · rintro e move g' l' ⟨hreach, hpublished⟩ hnothing hstep
    rcases initStep_cases hstep with
      ⟨frame, frame', hlocal, rfl, hcall⟩ | ⟨_, rfl, _⟩ | ⟨_, _, rfl, _⟩
    · rw [hlocal] at hnothing
      exact hcall.builtNothing (by simp [hpublished.consumer]) hnothing
    · exact ⟨rfl, .inl rfl⟩
    · trivial

/-! ## Every call can return -/

/-- How many steps a call has left at most. -/
def InitPc.remaining : InitPc → ℕ
  | .lock => 12
  | .check => 11
  | .parse => 10
  | .log => 9
  | .newContext => 8
  | .build => 7
  | .publish => 6
  | .sealing => 5
  | .disown => 4
  | .abandon _ => 3
  | .unlock _ => 2
  | .recover _ => 1
  | .returned _ => 0

omit [DecidableEq ι] in
/-- Only a call that waits for the lock is ever blocked. -/
theorem llingrInit_enabled (t : ι) {g : InitShared ι} {frame : InitFrame}
    (hlock : frame.pc = .lock → g.initMu = none) (hpc : ∀ rc, frame.pc ≠ .returned rc) :
    ∃ move r, llingrInit t g frame move = some r ∧ r.2.pc.remaining < frame.pc.remaining := by
  obtain ⟨pc, cancel, ctx, text⟩ := frame
  cases pc with
  | lock =>
      have hfree := hlock rfl
      refine ⟨.step, ({ g with initMu := some t }, ⟨.check, cancel, ctx, text⟩), ?_, ?_⟩
      · simp [llingrInit, hfree]
      · simp [InitPc.remaining]
  | check =>
      cases hconsumer : g.state.consumer with
      | none =>
          refine ⟨.step, (g, ⟨.parse, cancel, ctx, text⟩), ?_, ?_⟩
          · simp [llingrInit, hconsumer]
          · simp [InitPc.remaining]
      | some u =>
          refine ⟨.step, (g, ⟨.unlock (.returns ErrCode.alreadyInit.rc), cancel, ctx,
            some alreadyInitText⟩), ?_, ?_⟩
          · simp [llingrInit, hconsumer]
          · simp [InitPc.remaining]
  | parse => exact ⟨.outcome .done, _, rfl, by simp [InitPc.remaining]⟩
  | log => exact ⟨.outcome .done, _, rfl, by simp [InitPc.remaining]⟩
  | build => exact ⟨.outcome .done, _, rfl, by simp [InitPc.remaining]⟩
  | recover ending =>
      cases ending with
      | returns rc => exact ⟨.step, _, rfl, by simp [InitPc.remaining]⟩
      | panics value => exact ⟨.step, _, rfl, by simp [InitPc.remaining]⟩
  | returned rc => exact absurd rfl (hpc rc)
  | _ => exact ⟨.step, _, rfl, by simp [InitPc.remaining]⟩

omit [DecidableEq ι] in
theorem InitStep.initMu {t : ι} {g g' : InitShared ι} {frame frame' : InitFrame}
    (h : InitStep t g frame g' frame') :
    frame'.pc ≠ .lock ∧ (g'.initMu = g.initMu ∨ g'.initMu = some t ∨ g'.initMu = none) := by
  cases h with
  | lock hpc hfree => exact ⟨InitPc.noConfusion, .inr (.inl rfl)⟩
  | unlock ending hpc => exact ⟨InitPc.noConfusion, .inr (.inr rfl)⟩
  | _ => exact ⟨InitPc.noConfusion, .inl rfl⟩

/-- A call that does not wait for the lock can run to its end on its own. -/
theorem call_finishes {t : ι} {frame : InitFrame} (hcall : c.threads t = .call frame)
    (hlock : frame.pc = .lock → c.shared.initMu = none) :
    ∃ labels d, (initMachine ι).exec c labels = some d ∧ (d.threads t).rc.isSome = true ∧
      (∀ u, u ≠ t → d.threads u = c.threads u) ∧
      (d.shared.initMu = c.shared.initMu ∨ d.shared.initMu = some t ∨ d.shared.initMu = none) := by
  -- on the steps that remain; a call past its lock is never held up
  induction hn : frame.pc.remaining using Nat.strong_induction_on generalizing c frame with
  | _ n ih =>
      by_cases hreturned : ∃ rc, frame.pc = .returned rc
      · obtain ⟨rc, hpc⟩ := hreturned
        refine ⟨[], c, rfl, ?_, fun _ _ => rfl, .inl rfl⟩
        obtain ⟨pc, cancel, ctx, text⟩ := frame
        simp only at hpc
        rw [hcall, hpc]
        rfl
      · obtain ⟨move, ⟨g', frame'⟩, hstep, hless⟩ :=
          llingrInit_enabled t hlock (fun rc hpc => hreturned ⟨rc, hpc⟩)
        have hnext : (initMachine ι).next c (t, move) =
            some ⟨g', Function.update c.threads t (.call frame')⟩ :=
          Program.next_of_step (by simp [initProgram, hcall, initStep, hstep])
        have hmu := (llingrInit_cases hstep).initMu
        rw [hn] at hless
        obtain ⟨labels, d, hrun, hrc, hothers, hlast⟩ :=
          ih _ hless (c := ⟨g', Function.update c.threads t (.call frame')⟩) (by simp)
            (fun hpc => absurd hpc hmu.1) rfl
        refine ⟨(t, move) :: labels, d, Machine.exec_cons.mpr ⟨_, hnext, hrun⟩, hrc, ?_, ?_⟩
        · intro u hu
          rw [hothers u hu]
          exact Function.update_of_ne hu _ _
        · rcases hlast with hsame | hmine | hnone
          · rw [hsame]
            exact hmu.2
          · exact .inr (.inl hmine)
          · exact .inr (.inr hnone)

omit [DecidableEq ι] in
/-- The holder of the lock is a call that is past its lock. -/
theorem holder_call {u : ι} (hown : InitOwn u c.shared (c.threads u))
    (hheld : c.shared.initMu = some u) :
    ∃ frame, c.threads u = .call frame ∧ frame.pc ≠ .lock ∧ ∀ rc, frame.pc ≠ .returned rc := by
  cases hlocal : c.threads u with
  | call frame =>
      rw [hlocal] at hown
      refine ⟨frame, rfl, ?_, ?_⟩
      · intro hpc
        simp only [InitOwn, FrameOwn, hpc] at hown
        exact hown.1 hheld
      · intro rc hpc
        simp only [InitOwn, FrameOwn, hpc] at hown
        exact hown.1 hheld
  | idle =>
      rw [hlocal] at hown
      exact absurd hheld hown
  | registered applied =>
      rw [hlocal] at hown
      exact absurd hheld hown

omit [DecidableEq ι] in
/-- A returned call does not hold the lock, and what it returned is settled. -/
theorem returned_own {t : ι} {rc : ℤ} (hown : InitOwn t c.shared (c.threads t))
    (hrc : (c.threads t).rc = some rc) :
    ∃ frame, c.threads t = .call frame ∧ c.shared.initMu ≠ some t ∧
      Settled t c.shared frame rc := by
  cases hlocal : c.threads t with
  | call frame =>
      rw [hlocal] at hown hrc
      obtain ⟨pc, cancel, ctx, text⟩ := frame
      cases pc with
      | returned rc' =>
          cases hrc
          exact ⟨_, rfl, hown.1, hown.2⟩
      | _ => cases hrc
  | _ => simp [hlocal, InitAct.rc] at hrc

/-- Every call can return: the holder of the lock can always give it back. -/
theorem init_can_return {t : ι} {frame : InitFrame} (hreach : (initMachine ι).Reachable c)
    (hcall : c.threads t = .call frame) :
    ∃ labels d, (initMachine ι).exec c labels = some d ∧ (d.threads t).rc.isSome = true := by
  obtain ⟨_, hown⟩ := init_holds hreach
  by_cases hwaits : frame.pc = .lock ∧ ∃ u, c.shared.initMu = some u
  · obtain ⟨hpc, u, hheld⟩ := hwaits
    obtain ⟨other, hother, hpast, _⟩ := holder_call (hown u) hheld
    have hne : t ≠ u := by
      rintro rfl
      rw [hcall] at hother
      cases hother
      exact hpast hpc
    obtain ⟨first, d, hfirst, hrc, hothers, hmu⟩ :=
      call_finishes hother (fun hlock => absurd hlock hpast)
    -- the holder has returned, so it holds the lock no longer
    have hfree : d.shared.initMu = none := by
      obtain ⟨rc, hrc⟩ := Option.isSome_iff_exists.mp hrc
      obtain ⟨_, _, hnot, _⟩ := returned_own ((init_holds (hreach.exec hfirst)).2 u) hrc
      rcases hmu with hsame | hmine | hnone
      · exact absurd (hsame.trans hheld) hnot
      · exact absurd hmine hnot
      · exact hnone
    obtain ⟨second, e, hsecond, hreturned, _⟩ :=
      call_finishes ((hothers t hne).trans hcall) (fun _ => hfree)
    exact ⟨first ++ second, e, Machine.exec_append.mpr ⟨d, hfirst, hsecond⟩, hreturned⟩
  · obtain ⟨labels, d, hrun, hreturned, _⟩ := call_finishes hcall (fun hpc => by
      rcases hheld : c.shared.initMu with _ | u
      · rfl
      · exact absurd ⟨hpc, u, hheld⟩ hwaits)
    exact ⟨labels, d, hrun, hreturned⟩

/-! ## The contract -/

/-- What `llingr_init` promises of a run of concurrent calls that ends in `c`. -/
structure SingleShot (labels : List (ι × InitMove)) (c : InitCfg ι) : Prop where
  /-- At most one call returns 0. -/
  one_success : ∀ t u, (c.threads t).rc = some 0 → (c.threads u).rc = some 0 → t = u
  /-- A call that starts after one returned 0 builds nothing, returns nothing but
  `errAlreadyInit`, and can return it. -/
  late_call : ∀ earlier later d t u, labels = earlier ++ later →
    (initMachine ι).exec (initMachine ι).start earlier = some d → (d.threads u).rc = some 0 →
    d.threads t = .idle → (c.threads t).BuiltNothing ∧
      (∀ rc, (c.threads t).rc = some rc → rc = ErrCode.alreadyInit.rc) ∧
      (∀ frame, c.threads t = .call frame → ∃ rest e,
        (initMachine ι).exec c rest = some e ∧ (e.threads t).rc = some ErrCode.alreadyInit.rc)
  /-- A call that returned an error wrote neither the record nor the seal at any of its steps,
  left no live context and released the lock. -/
  failed_call : ∀ t rc, (c.threads t).rc = some rc → rc ≠ 0 →
    (∀ before move after,
      (initMachine ι).Takes (initMachine ι).start labels before (t, move) after →
      after.shared.state = before.shared.state ∧
        after.shared.registration.callbacksSealed = before.shared.registration.callbacksSealed) ∧
    (c.threads t).ctx ≠ some .live ∧ c.shared.initMu ≠ some t
  /-- A call that returned 0 left everything set, its own context live and registration closed. -/
  success : ∀ t, (c.threads t).rc = some 0 →
    c.shared.state.consumer = some t ∧ c.shared.state.cancel = some t ∧
      c.shared.state.brokerCleanup = some t ∧ c.shared.state.runDone = some ⟨0⟩ ∧
      (c.threads t).ctx = some .live ∧ c.shared.registration.callbacksSealed = true ∧
      c.shared.initMu ≠ some t
  /-- The fields are set together: in no state is one of them set and another not. -/
  together : c.shared.state = .zero ∨ ∃ t, c.shared.state = BridgeState.zero.publish t

omit [DecidableEq ι] in
theorem rc_of_succeeding {l : InitAct} {rc : ℤ} (h : l.Succeeding) (hrc : l.rc = some rc) :
    rc = 0 := by
  cases l with
  | call frame =>
      obtain ⟨pc, cancel, ctx, text⟩ := frame
      cases pc with
      | returned rc' =>
          cases hrc
          simpa [InitAct.Succeeding] using h
      | _ => cases hrc
  | _ => cases hrc

omit [DecidableEq ι] in
theorem rc_of_builtNothing {l : InitAct} {rc : ℤ} (h : l.BuiltNothing) (hrc : l.rc = some rc) :
    rc = ErrCode.alreadyInit.rc := by
  cases l with
  | call frame =>
      obtain ⟨pc, cancel, ctx, text⟩ := frame
      cases pc with
      | returned rc' =>
          cases hrc
          simpa [InitAct.BuiltNothing] using h.2
      | _ => cases hrc
  | _ => cases hrc

/-- **`llingr_init` is atomic and single-shot** under every interleaving. -/
theorem llingrInit_singleShot (hrun : (initMachine ι).exec (initMachine ι).start labels = some c) :
    SingleShot labels c := by
  have hreach : (initMachine ι).Reachable c := ⟨labels, hrun⟩
  obtain ⟨hinv, hown⟩ := init_holds hreach
  -- a call that returned 0 has published, and there is one record to publish in
  have hzero : ∀ {e : InitCfg ι} {t : ι}, (initMachine ι).Reachable e →
      (e.threads t).rc = some 0 → Published t e.shared := by
    intro e t hreach hrc
    obtain ⟨_, _, _, hsettled⟩ := returned_own ((init_holds hreach).2 t) hrc
    exact (hsettled.1 rfl).1
  refine ⟨?_, ?_, ?_, ?_, hinv.state⟩
  · intro t u ht hu
    have hsame := (hzero hreach ht).consumer.symm.trans (hzero hreach hu).consumer
    exact Option.some_inj.mp hsame
  · rintro earlier later d t u rfl hearlier hrc hidle
    have hd : (initMachine ι).Reachable d := ⟨earlier, hearlier⟩
    obtain ⟨e, he, hlater⟩ := Machine.exec_append.mp hrun
    rw [hearlier, Option.some_inj] at he
    subst he
    -- a call that begins now finds the consumer, and goes back with nothing built
    have hnothing := builtNothing_of_exec hd (hzero hd hrc) hidle hlater
    refine ⟨hnothing, fun rc => rc_of_builtNothing hnothing, fun frame hcall => ?_⟩
    obtain ⟨rest, e, hrest, hreturned⟩ := init_can_return hreach hcall
    obtain ⟨rc, hrc'⟩ := Option.isSome_iff_exists.mp hreturned
    have hboth := builtNothing_of_exec hd (hzero hd hrc) hidle
      (Machine.exec_append.mpr ⟨c, hlater, hrest⟩)
    exact ⟨rest, e, hrest, by rw [hrc', rc_of_builtNothing hboth hrc']⟩
  · intro t rc hrc hne
    obtain ⟨frame, hlocal, hnot, hsettled⟩ := returned_own (hown t) hrc
    refine ⟨fun before move after htakes => ?_, ?_, hnot⟩
    · obtain ⟨rest, hrest⟩ := htakes.exec_after hrun
      obtain ⟨_, _, _, _, hnext⟩ := htakes
      have hfails : ¬ (after.threads t).Succeeding := fun hsucceeding =>
        hne (rc_of_succeeding (succeeding_of_exec hsucceeding hrest) hrc)
      rcases initStep_cases (initStep_of_next hnext) with
        ⟨_, frame', _, hafter, hstep⟩ | ⟨_, _, hsame⟩ | ⟨mutate, _, hafter, hsame⟩
      -- only the steps of a succeeding call write the record or the seal
      · rw [hafter] at hfails
        obtain ⟨hstate, hreg⟩ := hstep.writes.resolve_right hfails
        exact ⟨hstate, by rw [hreg]⟩
      · rw [hsame]
        exact ⟨rfl, rfl⟩
      · rw [hsame]
        exact ⟨rfl, Registration.callbacksSealed_setCallback mutate _⟩
    · rw [hlocal]
      exact (hsettled.2 hne).1
  · intro t hrc
    obtain ⟨frame, hlocal, hnot, hsettled⟩ := returned_own (hown t) hrc
    obtain ⟨hpublished, hsealed, hlive⟩ := hsettled.1 rfl
    rw [hlocal]
    have hstate : c.shared.state = BridgeState.zero.publish t := hpublished
    rw [hstate]
    exact ⟨rfl, rfl, rfl, rfl, hlive, hsealed, hnot⟩

/-- A build panics while another call waits for the lock; the second call takes the
lock before the first has recovered, and succeeds; a third comes late. -/
def retryAfterPanicRun : List (ℕ × InitMove) :=
  [(0, .call), (0, .step), (0, .step), (0, .outcome .done), (0, .outcome .done), (0, .step),
    (1, .call), (0, .outcome (.panicked "drain timeout out of range")), (0, .step), (1, .step),
    (1, .step), (0, .step), (1, .outcome .done), (1, .outcome .done), (1, .step),
    (1, .outcome .done), (1, .step), (1, .step), (1, .step), (1, .step), (1, .step), (2, .call),
    (2, .step), (2, .step), (2, .step), (2, .step)]

theorem llingrInit_singleShot_retryAfterPanic :
    ∃ c, (initMachine ℕ).exec (initMachine ℕ).start retryAfterPanicRun = some c ∧
      (c.threads 0).rc = some ErrCode.badOption.rc ∧ (c.threads 1).rc = some 0 ∧
      (c.threads 2).rc = some ErrCode.alreadyInit.rc ∧ SingleShot retryAfterPanicRun c :=
  ⟨_, rfl, rfl, rfl, rfl, llingrInit_singleShot rfl⟩

end LlingrKafka.Bridge
