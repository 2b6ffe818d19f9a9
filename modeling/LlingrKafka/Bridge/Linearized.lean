import LlingrKafka.Bridge.Registering
import LlingrKafka.Foundations.Simulation

/-!
# The registration is one object

Every interleaving of the setters, of the seal and of the readers shows what some
run of the one-step object `Registry` shows: the registration is linearizable, and
with it the one-step `Registration` of `Callbacks.lean` is justified.

A call is served at one of its steps: a setter where it stores the pointer, or
where it finds the seal; the seal where it stores the flag; a reader where it loads
the pointer.  `ThreadRel` says what a goroutine knows before and after that step.
A reader goes through its pointer later, so it must know that the set behind it no
longer changes: the call whose `next` it is has `Settled`, and only that call ever
writes it.
-/

namespace LlingrKafka.Bridge

variable {ι φ : Type*}

/-- The goroutine is between its lock of `registrationMu` and its unlock. -/
def RegistrationAct.Critical : RegistrationAct ι φ → Prop
  | .setter _ _ .lock | .setter _ _ .reject => False
  | .setter _ _ _ => True
  | .sealing .lock => False
  | .sealing _ => True
  | _ => False

/-- The call writes no set any more. -/
def RegistrationAct.Settled : RegistrationAct ι φ → Prop
  | .setter _ _ (.unlock _) | .setter _ _ .reject | .returning _ | .returned => True
  | _ => False

/-! ## What a step can do -/

/-- The steps of a setter. -/
inductive SetterStep [DecidableEq ι] (t : ι) (kind : CallbackKind) (cb : Option φ)
    (g : RegistrationMemory ι φ) :
    SetterPc ι → RegistrationMemory ι φ → RegistrationAct ι φ → Prop
  | lock (h : g.registrationMu = none) :
      SetterStep t kind cb g .lock { g with registrationMu := some t } (.setter kind cb .check)
  | sealed (h : g.callbacksSealed = true) :
      SetterStep t kind cb g .check g (.setter kind cb (.unlock false))
  | opened (h : g.callbacksSealed = false) :
      SetterStep t kind cb g .check g (.setter kind cb .load)
  | load : SetterStep t kind cb g .load g (.setter kind cb (.copy g.registeredCallbacks))
  | copy (ptr : Option ι) (table : CallbackTable φ) (h : g.deref ptr = some table) :
      SetterStep t kind cb g (.copy ptr) (g.write t table) (.setter kind cb .mutate)
  | mutate (table : CallbackTable φ) (h : g.heap t = some table) :
      SetterStep t kind cb g .mutate (g.write t (table.set kind cb)) (.setter kind cb .store)
  | store :
      SetterStep t kind cb g .store { g with registeredCallbacks := some t }
        (.setter kind cb (.unlock true))
  | applied :
      SetterStep t kind cb g (.unlock true) { g with registrationMu := none }
        (.returning (.applied true))
  | refused :
      SetterStep t kind cb g (.unlock false) { g with registrationMu := none }
        (.setter kind cb .reject)
  | reject : SetterStep t kind cb g .reject g (.returning (.applied false))

theorem llingrOn_cases [DecidableEq ι] {t : ι} {kind : CallbackKind} {cb : Option φ}
    {g g' : RegistrationMemory ι φ} {pc : SetterPc ι} {l' : RegistrationAct ι φ}
    (h : llingrOn t kind cb g pc = some (g', l')) : SetterStep t kind cb g pc g' l' := by
  cases pc with
  | lock =>
      cases hmu : g.registrationMu with
      | none =>
          simp only [llingrOn, hmu, Option.some.injEq, Prod.mk.injEq] at h
          obtain ⟨rfl, rfl⟩ := h
          exact .lock hmu
      | some u => simp [llingrOn, hmu] at h
  | check =>
      simp only [llingrOn] at h
      split at h <;> obtain ⟨rfl, rfl⟩ := Prod.mk.inj (Option.some_inj.mp h)
      · exact .sealed ‹_›
      · exact .opened (Bool.eq_false_iff.mpr ‹_›)
  | load =>
      obtain ⟨rfl, rfl⟩ := Prod.mk.inj (Option.some_inj.mp h)
      exact .load
  | copy ptr =>
      simp only [llingrOn, Option.map_eq_some_iff, Prod.mk.injEq] at h
      obtain ⟨table, htable, rfl, rfl⟩ := h
      exact .copy ptr table htable
  | mutate =>
      simp only [llingrOn, Option.map_eq_some_iff, Prod.mk.injEq] at h
      obtain ⟨table, htable, rfl, rfl⟩ := h
      exact .mutate table htable
  | store =>
      obtain ⟨rfl, rfl⟩ := Prod.mk.inj (Option.some_inj.mp h)
      exact .store
  | unlock applied =>
      obtain ⟨rfl, rfl⟩ := Prod.mk.inj (Option.some_inj.mp h)
      cases applied with
      | false => exact .refused
      | true => exact .applied
  | reject =>
      obtain ⟨rfl, rfl⟩ := Prod.mk.inj (Option.some_inj.mp h)
      exact .reject

/-- The moves of a goroutine. -/
inductive RegistrationStep [DecidableEq ι] (t : ι) (g : RegistrationMemory ι φ) :
    RegistrationAct ι φ → RegistrationMove φ →
      RegistrationMemory ι φ → RegistrationAct ι φ → Prop
  | call (call : RegistrationCall φ) : RegistrationStep t g .idle (.call call) g call.begin
  | setter {kind : CallbackKind} {cb : Option φ} {pc : SetterPc ι} {g' : RegistrationMemory ι φ}
      {l' : RegistrationAct ι φ} (h : SetterStep t kind cb g pc g' l') :
      RegistrationStep t g (.setter kind cb pc) .step g' l'
  | lockSeal (h : g.registrationMu = none) :
      RegistrationStep t g (.sealing .lock) .step { g with registrationMu := some t }
        (.sealing .store)
  | storeSeal :
      RegistrationStep t g (.sealing .store) .step { g with callbacksSealed := true }
        (.sealing .unlock)
  | unlockSeal :
      RegistrationStep t g (.sealing .unlock) .step { g with registrationMu := none }
        (.returning .sealed)
  | loadPtr :
      RegistrationStep t g (.reader .load) .step g (.reader (.deref g.registeredCallbacks))
  | deref (ptr : Option ι) (table : CallbackTable φ) (h : g.deref ptr = some table) :
      RegistrationStep t g (.reader (.deref ptr)) .step g (.returning (.table table))
  | ret (result : RegistrationResult φ) :
      RegistrationStep t g (.returning result) .step g .returned

theorem registrationStep_cases [DecidableEq ι] {t : ι} {g g' : RegistrationMemory ι φ}
    {l l' : RegistrationAct ι φ} {move : RegistrationMove φ}
    (h : registrationStep t g l move = some (g', l')) : RegistrationStep t g l move g' l' := by
  unfold registrationStep at h
  split at h
  · obtain ⟨rfl, rfl⟩ := Prod.mk.inj (Option.some_inj.mp h)
    exact .call _
  · exact .setter (llingrOn_cases h)
  · unfold sealCallbacks at h
    split at h
    · split at h
      · obtain ⟨rfl, rfl⟩ := Prod.mk.inj (Option.some_inj.mp h)
        exact .lockSeal ‹_›
      · cases h
    · obtain ⟨rfl, rfl⟩ := Prod.mk.inj (Option.some_inj.mp h)
      exact .storeSeal
    · obtain ⟨rfl, rfl⟩ := Prod.mk.inj (Option.some_inj.mp h)
      exact .unlockSeal
  · unfold readCallbacks at h
    split at h
    · obtain ⟨rfl, rfl⟩ := Prod.mk.inj (Option.some_inj.mp h)
      exact .loadPtr
    · simp only [Option.map_eq_some_iff, Prod.mk.injEq] at h
      obtain ⟨table, htable, rfl, rfl⟩ := h
      exact .deref _ table htable
  · obtain ⟨rfl, rfl⟩ := Prod.mk.inj (Option.some_inj.mp h)
    exact .ret _
  · cases h

/-! ## What a step leaves to the others -/

/-- What the move of `t` from `c` to `d` leaves to the other goroutines. -/
structure RegistrationFrame (t : ι) (c d : RegistrationCfg ι φ) : Prop where
  threads : ∀ u, u ≠ t → d.threads u = c.threads u
  heap : ∀ u, u ≠ t ∨ (c.threads u).Settled → d.shared.heap u = c.shared.heap u
  settled : (c.threads t).Settled → (d.threads t).Settled
  holder : ∀ u, u ≠ t → (d.shared.registrationMu = some u ↔ c.shared.registrationMu = some u)
  held : ∀ u, u ≠ t → c.shared.registrationMu = some u →
    d.shared.callbacksSealed = c.shared.callbacksSealed ∧
      d.shared.registeredCallbacks = c.shared.registeredCallbacks

theorem RegistrationFrame.settled_all {t : ι} {c d : RegistrationCfg ι φ}
    (hframe : RegistrationFrame t c d) {u : ι} (h : (c.threads u).Settled) :
    (d.threads u).Settled := by
  rcases eq_or_ne u t with rfl | hu
  · exact hframe.settled h
  · rw [hframe.threads u hu]
    exact h

/-- The pointer leads to this set, and the set is not written any more. -/
def Knows (c : RegistrationCfg ι φ) (ptr : Option ι) (table : CallbackTable φ) : Prop :=
  c.shared.deref ptr = some table ∧ ∀ u, ptr = some u → (c.threads u).Settled

theorem Knows.mono {t : ι} {c d : RegistrationCfg ι φ} {ptr : Option ι} {table : CallbackTable φ}
    (hframe : RegistrationFrame t c d) (h : Knows c ptr table) : Knows d ptr table := by
  obtain ⟨htable, hsettled⟩ := h
  cases ptr with
  | none =>
      refine ⟨htable, fun u hu => ?_⟩
      cases hu
  | some owner =>
      have howner := hsettled owner rfl
      refine ⟨(hframe.heap owner (.inr howner)).trans htable, fun u hu => ?_⟩
      exact hframe.settled_all (hsettled u hu)

/-- The mutex is held by the goroutine in its critical section. -/
def MutexHeld (c : RegistrationCfg ι φ) : Prop :=
  ∀ t, c.shared.registrationMu = some t ↔ (c.threads t).Critical

theorem not_critical_begin (call : RegistrationCall φ) :
    ¬ (call.begin : RegistrationAct ι φ).Critical := by
  cases call <;> exact id

section

variable [DecidableEq ι] {t : ι} {c d : RegistrationCfg ι φ}

/-- A goroutine that takes the mutex, or gives it back, is the only one to change it. -/
theorem mutex_step {move : RegistrationMove φ} (hmutex : MutexHeld c)
    (h : RegistrationStep t c.shared (c.threads t) move d.shared (d.threads t)) :
    (d.shared.registrationMu = some t ↔ (d.threads t).Critical) ∧
      ∀ u, u ≠ t →
        (d.shared.registrationMu = some u ↔ c.shared.registrationMu = some u) := by
  have hown := hmutex t
  have hfree : (none : Option ι) ≠ some t := by
    intro h
    cases h
  have hlock : c.shared.registrationMu = none → d.shared.registrationMu = some t →
      ∀ u, u ≠ t → (d.shared.registrationMu = some u ↔ c.shared.registrationMu = some u) := by
    intro hnone htaken u hu
    rw [hnone, htaken, Option.some_inj]
    refine iff_of_false (Ne.symm hu) ?_
    intro h
    cases h
  have hunlock : c.shared.registrationMu = some t → d.shared.registrationMu = none →
      ∀ u, u ≠ t → (d.shared.registrationMu = some u ↔ c.shared.registrationMu = some u) := by
    intro hmine hnone u hu
    rw [hmine, hnone, Option.some_inj]
    refine iff_of_false ?_ (Ne.symm hu)
    intro h
    cases h
  -- only the two locks and the three unlocks touch the mutex
  generalize c.threads t = l at h hown
  generalize d.threads t = l' at h ⊢
  generalize d.shared = g' at h hlock hunlock ⊢
  cases h with
  | call call => exact ⟨hown.trans (iff_of_false id (not_critical_begin call)), fun _ _ => .rfl⟩
  | setter hsetter =>
      cases hsetter with
      | lock hnone => exact ⟨iff_of_true rfl trivial, hlock hnone rfl⟩
      | applied =>
          exact ⟨iff_of_false hfree id, hunlock (hown.mpr trivial) rfl⟩
      | refused =>
          exact ⟨iff_of_false hfree id, hunlock (hown.mpr trivial) rfl⟩
      | _ => exact ⟨hown, fun _ _ => .rfl⟩
  | lockSeal hnone => exact ⟨iff_of_true rfl trivial, hlock hnone rfl⟩
  | unlockSeal =>
      exact ⟨iff_of_false hfree id, hunlock (hown.mpr trivial) rfl⟩
  | _ => exact ⟨hown, fun _ _ => .rfl⟩

/-- What a step of `t` leaves to the others. -/
theorem registrationFrame_step {move : RegistrationMove φ} (hmutex : MutexHeld c)
    (hthreads : ∀ u, u ≠ t → d.threads u = c.threads u)
    (h : RegistrationStep t c.shared (c.threads t) move d.shared (d.threads t)) :
    RegistrationFrame t c d := by
  have hholder := (mutex_step hmutex h).2
  -- a thread inside the mutex excludes the others from it
  have hmine : (c.threads t).Critical → ∀ u, u ≠ t → c.shared.registrationMu ≠ some u := by
    intro hcritical u hu hheld
    rw [(hmutex t).mpr hcritical, Option.some_inj] at hheld
    exact hu hheld.symm
  -- the cell of `t` is written only before it is published, so nobody reads it yet
  have hwrite : ¬ (c.threads t).Settled → ∀ table u, u ≠ t ∨ (c.threads u).Settled →
      (c.shared.write t table).heap u = c.shared.heap u := by
    intro hopen table u hu
    refine Function.update_of_ne ?_ _ _
    rintro rfl
    rcases hu with hu | hu
    · exact hu rfl
    · exact hopen hu
  generalize hl : c.threads t = l at h hmine hwrite
  generalize hl' : d.threads t = l' at h
  -- what the moves write, case by case
  have key : (∀ u, u ≠ t ∨ (c.threads u).Settled → d.shared.heap u = c.shared.heap u) ∧
      (l.Settled → l'.Settled) ∧
      (∀ u, u ≠ t → c.shared.registrationMu = some u →
        d.shared.callbacksSealed = c.shared.callbacksSealed ∧
          d.shared.registeredCallbacks = c.shared.registeredCallbacks) := by
    generalize d.shared = g' at h
    cases h with
    | call call => exact ⟨fun _ _ => rfl, False.elim, fun _ _ _ => ⟨rfl, rfl⟩⟩
    | setter hsetter =>
        cases hsetter with
        | copy ptr table htable => exact ⟨hwrite id table, False.elim, fun _ _ _ => ⟨rfl, rfl⟩⟩
        | mutate table htable => exact ⟨hwrite id _, False.elim, fun _ _ _ => ⟨rfl, rfl⟩⟩
        | store =>
            exact ⟨fun _ _ => rfl, False.elim, fun u hu hheld => absurd hheld (hmine trivial u hu)⟩
        | applied => exact ⟨fun _ _ => rfl, fun _ => trivial, fun _ _ _ => ⟨rfl, rfl⟩⟩
        | refused => exact ⟨fun _ _ => rfl, fun _ => trivial, fun _ _ _ => ⟨rfl, rfl⟩⟩
        | reject => exact ⟨fun _ _ => rfl, fun _ => trivial, fun _ _ _ => ⟨rfl, rfl⟩⟩
        | _ => exact ⟨fun _ _ => rfl, False.elim, fun _ _ _ => ⟨rfl, rfl⟩⟩
    | storeSeal =>
        exact ⟨fun _ _ => rfl, False.elim, fun u hu hheld => absurd hheld (hmine trivial u hu)⟩
    | ret result => exact ⟨fun _ _ => rfl, fun _ => trivial, fun _ _ _ => ⟨rfl, rfl⟩⟩
    | _ => exact ⟨fun _ _ => rfl, False.elim, fun _ _ _ => ⟨rfl, rfl⟩⟩
  obtain ⟨hheap, hsettled, hheld⟩ := key
  exact ⟨hthreads, hheap, by rw [hl, hl']; exact hsettled, hholder, hheld⟩

end

/-! ## The simulation -/

/-- What a setter knows before it is served. -/
def SetterKnows (c : RegistrationCfg ι φ) (reg : Registry φ) (t : ι) (kind : CallbackKind)
    (cb : Option φ) : SetterPc ι → Prop
  | .lock | .check => True
  | .load => c.shared.callbacksSealed = false
  | .copy ptr => c.shared.callbacksSealed = false ∧ ptr = c.shared.registeredCallbacks
  | .mutate => c.shared.callbacksSealed = false ∧ c.shared.heap t = some reg.table
  | .store => c.shared.callbacksSealed = false ∧ c.shared.heap t = some (reg.table.set kind cb)
  | .unlock _ | .reject => False

/-- A goroutine of the code against a caller of the object. -/
def ThreadRel (c : RegistrationCfg ι φ) (reg : Registry φ) (t : ι) :
    RegistrationAct ι φ → CallerAct φ → Prop
  | .idle, .idle => True
  | .setter kind cb pc, .called call => call = .set kind cb ∧ SetterKnows c reg t kind cb pc
  | .setter kind cb (.unlock applied), .served call result =>
      call = .set kind cb ∧ result = .applied applied
  | .setter kind cb .reject, .served call result =>
      call = .set kind cb ∧ result = .applied false
  | .sealing .lock, .called call | .sealing .store, .called call => call = .sealCallbacks
  | .sealing .unlock, .served call result => call = .sealCallbacks ∧ result = .sealed
  | .reader .load, .called call => call = .load
  | .reader (.deref ptr), .served call result =>
      call = .load ∧ ∃ table, result = .table table ∧ Knows c ptr table
  | .returning result, .returning result' => result = result'
  | .returned, .returned => True
  | _, _ => False

/-- The code against the object. -/
structure Linked (c : RegistrationCfg ι φ) (a : CallerCfg ι φ) : Prop where
  mutex : MutexHeld c
  sealed : a.shared.sealed = c.shared.callbacksSealed
  table : Knows c c.shared.registeredCallbacks a.shared.table
  threads : ∀ t, ThreadRel c a.shared t (c.threads t) (a.threads t)

/-- A setter that may still write is waiting to be served. -/
theorem ThreadRel.called {c : RegistrationCfg ι φ} {reg : Registry φ} {t : ι}
    {kind : CallbackKind} {cb : Option φ} {pc : SetterPc ι} {m : CallerAct φ}
    (h : ThreadRel c reg t (.setter kind cb pc) m)
    (hopen : ¬ (RegistrationAct.setter kind cb pc : RegistrationAct ι φ).Settled) :
    m = .called (.set kind cb) := by
  cases pc with
  | unlock applied => exact absurd trivial hopen
  | reject => exact absurd trivial hopen
  | _ =>
      cases m with
      | called call => rw [h.1]
      | _ => exact h.elim

/-- A setter that has settled was served. -/
theorem ThreadRel.served {c : RegistrationCfg ι φ} {reg : Registry φ} {t : ι}
    {kind : CallbackKind} {cb : Option φ} {pc : SetterPc ι} {m : CallerAct φ}
    (h : ThreadRel c reg t (.setter kind cb pc) m)
    (hsettled : (RegistrationAct.setter kind cb pc : RegistrationAct ι φ).Settled) :
    ∃ result, m = .served (.set kind cb) result := by
  cases pc with
  | unlock applied =>
      cases m with
      | served call result => exact ⟨result, by rw [h.1]⟩
      | called call => exact h.2.elim
      | _ => exact h.elim
  | reject =>
      cases m with
      | served call result => exact ⟨result, by rw [h.1]⟩
      | called call => exact h.2.elim
      | _ => exact h.elim
  | _ => exact hsettled.elim

/-- What the move of another goroutine leaves of a link.  Only inside the critical
section does it mention what the move could have changed. -/
theorem ThreadRel.mono {t u : ι} {c d : RegistrationCfg ι φ} {reg reg' : Registry φ}
    {l : RegistrationAct ι φ} {m : CallerAct φ} (hu : u ≠ t) (hframe : RegistrationFrame t c d)
    (hcritical : l.Critical → d.shared.callbacksSealed = c.shared.callbacksSealed ∧
      d.shared.registeredCallbacks = c.shared.registeredCallbacks ∧ reg'.table = reg.table)
    (h : ThreadRel c reg u l m) : ThreadRel d reg' u l m := by
  have hheap := hframe.heap u (.inl hu)
  cases l with
  | setter kind cb pc =>
      cases pc with
      | lock => cases m <;> exact h
      | reject => cases m <;> exact h
      | _ =>
          obtain ⟨hsealed, hregistered, htable⟩ := hcritical trivial
          cases m <;>
            simp only [ThreadRel, SetterKnows, hsealed, hregistered, htable, hheap] at h ⊢ <;>
            exact h
  | sealing pc => cases pc <;> cases m <;> exact h
  | reader pc =>
      cases pc with
      | load => cases m <;> exact h
      | deref ptr =>
          cases m with
          | served call result =>
              obtain ⟨hcall, table, hresult, hknows⟩ := h
              exact ⟨hcall, table, hresult, hknows.mono hframe⟩
          | _ => exact h
  | _ => cases m <;> exact h

section

variable [DecidableEq ι] {t : ι} {c d : RegistrationCfg ι φ} {a : CallerCfg ι φ}

/-- The link after a move of `t`: what has to be shown of `t` and of the memory. -/
theorem Linked.move {move : RegistrationMove φ} {reg' : Registry φ} {m' : CallerAct φ}
    (hlink : Linked c a) (hthreads : ∀ u, u ≠ t → d.threads u = c.threads u)
    (h : RegistrationStep t c.shared (c.threads t) move d.shared (d.threads t))
    (hsealed : reg'.sealed = d.shared.callbacksSealed)
    (htable : Knows d d.shared.registeredCallbacks reg'.table)
    (hown : ThreadRel d reg' t (d.threads t) m') :
    Linked d ⟨reg', Function.update a.threads t m'⟩ := by
  have hframe := registrationFrame_step hlink.mutex hthreads h
  obtain ⟨hmutex, hothers⟩ := mutex_step hlink.mutex h
  refine ⟨fun u => ?_, hsealed, htable, fun u => ?_⟩
  · rcases eq_or_ne u t with rfl | hu
    · exact hmutex
    · rw [hothers u hu, hthreads u hu]
      exact hlink.mutex u
  · rcases eq_or_ne u t with rfl | hu
    · change ThreadRel d reg' u _ (Function.update a.threads u m' u)
      rwa [Function.update_self]
    · change ThreadRel d reg' u _ (Function.update a.threads t m' u)
      rw [Function.update_of_ne hu, hthreads u hu]
      refine (hlink.threads u).mono hu hframe fun hcritical => ?_
      obtain ⟨hsame, hregistered⟩ := hframe.held u hu ((hlink.mutex u).mpr hcritical)
      refine ⟨hsame, hregistered, ?_⟩
      have hbefore := (hlink.table.mono hframe).1
      rw [← hregistered] at hbefore
      exact Option.some_inj.mp (htable.1.symm.trans hbefore)

/-- The link after a move that leaves what is published and the seal. -/
theorem Linked.quiet {move : RegistrationMove φ} {m' : CallerAct φ} (hlink : Linked c a)
    (hthreads : ∀ u, u ≠ t → d.threads u = c.threads u)
    (h : RegistrationStep t c.shared (c.threads t) move d.shared (d.threads t))
    (hsealed : d.shared.callbacksSealed = c.shared.callbacksSealed)
    (hregistered : d.shared.registeredCallbacks = c.shared.registeredCallbacks)
    (hown : ThreadRel d a.shared t (d.threads t) m') :
    Linked d ⟨a.shared, Function.update a.threads t m'⟩ := by
  have hknows := hlink.table.mono (registrationFrame_step hlink.mutex hthreads h)
  rw [← hregistered] at hknows
  exact hlink.move hthreads h (hlink.sealed.trans hsealed.symm) hknows hown

/-- The same, when the object does nothing. -/
theorem Linked.stay {move : RegistrationMove φ} (hlink : Linked c a)
    (hthreads : ∀ u, u ≠ t → d.threads u = c.threads u)
    (h : RegistrationStep t c.shared (c.threads t) move d.shared (d.threads t))
    (hsealed : d.shared.callbacksSealed = c.shared.callbacksSealed)
    (hregistered : d.shared.registeredCallbacks = c.shared.registeredCallbacks)
    (hown : ThreadRel d a.shared t (d.threads t) (a.threads t)) : Linked d a := by
  have hquiet := hlink.quiet hthreads h hsealed hregistered hown
  rwa [Function.update_eq_self] at hquiet

/-- What `Linked` asks the object to answer to a move of `t`. -/
abbrev Answered (d : RegistrationCfg ι φ) (a : CallerCfg ι φ)
    (seen : Option (RegistrationEvent ι φ)) : Prop :=
  (registryMachine ι φ).Answers registrySee Linked d a seen

theorem answered_by (move : CallerMove φ) {reg' : Registry φ} {m' : CallerAct φ}
    {seen : Option (RegistrationEvent ι φ)}
    (hstep : callerStep t a.shared (a.threads t) move = some (reg', m'))
    (hsee : registrySee a (t, move) = seen)
    (hlink : Linked d ⟨reg', Function.update a.threads t m'⟩) : Answered d a seen :=
  Machine.answers_step (Program.next_of_step (P := registryProgram ι φ) hstep) hsee hlink

/-- A setter is served where it finds the seal, or where it stores its pointer. -/
theorem answered_setter {kind : CallbackKind} {cb : Option φ} {pc : SetterPc ι}
    (hlink : Linked c a) (hl : c.threads t = .setter kind cb pc)
    (hthreads : ∀ u, u ≠ t → d.threads u = c.threads u)
    (h : SetterStep t kind cb c.shared pc d.shared (d.threads t)) :
    Answered d a (registrationSee c (t, .step)) := by
  have hstep : RegistrationStep t c.shared (c.threads t) .step d.shared (d.threads t) := by
    rw [hl]
    exact .setter h
  have hrel := hlink.threads t
  -- only the last move of a refused setter is seen as its return
  have hsee : pc ≠ .reject → registrationSee c (t, .step) = none := by
    intro hpc
    simp only [registrationSee, hl]
    cases pc with
    | reject => exact absurd rfl hpc
    | _ => rfl
  rw [hl] at hrel
  generalize hl' : d.threads t = l' at h
  generalize hg : d.shared = g' at h
  cases h with
  | lock hfree =>
      refine Machine.answers_stay (hsee nofun) (hlink.stay hthreads hstep ?_ ?_ ?_)
      · rw [hg]
      · rw [hg]
      · rw [hl', hrel.called id]
        exact ⟨rfl, trivial⟩
  | sealed hsealed =>
      have hm := hrel.called id
      -- the seal is found: this is where the object refuses
      have hserve : a.shared.apply (.set kind cb) = (a.shared, .applied false) := by
        simp [Registry.apply, hlink.sealed, hsealed]
      refine answered_by .serve (by rw [hm]; rfl) ?_ ?_
      · rw [hsee nofun, registrySee, hm]
      · rw [hserve]
        refine hlink.quiet hthreads hstep (by rw [hg]) (by rw [hg]) ?_
        rw [hl']
        exact ⟨rfl, rfl⟩
  | opened hopen =>
      have hm := hrel.called id
      have hopen' : d.shared.callbacksSealed = false := by rw [hg]; exact hopen
      refine Machine.answers_stay (hsee nofun) (hlink.stay hthreads hstep ?_ ?_ ?_)
      · rw [hg]
      · rw [hg]
      · rw [hl', hm]
        exact ⟨rfl, hopen'⟩
  | load =>
      have hm := hrel.called id
      rw [hm] at hrel
      have hopen : d.shared.callbacksSealed = false := by rw [hg]; exact hrel.2
      refine Machine.answers_stay (hsee nofun) (hlink.stay hthreads hstep ?_ ?_ ?_)
      · rw [hg]
      · rw [hg]
      · rw [hl', hm]
        exact ⟨rfl, hopen, by rw [hg]⟩
  | copy ptr table htable =>
      have hm := hrel.called id
      rw [hm] at hrel
      obtain ⟨-, hopen, rfl⟩ := hrel
      obtain rfl := Option.some_inj.mp (htable.symm.trans hlink.table.1)
      have hopen' : d.shared.callbacksSealed = false := by rw [hg]; exact hopen
      refine Machine.answers_stay (hsee nofun) (hlink.stay hthreads hstep ?_ ?_ ?_)
      · rw [hg]
        rfl
      · rw [hg]
        rfl
      · rw [hl', hm]
        refine ⟨rfl, hopen', ?_⟩
        rw [hg]
        exact Function.update_self ..
  | mutate table htable =>
      have hm := hrel.called id
      rw [hm] at hrel
      obtain ⟨-, hopen, hmine⟩ := hrel
      obtain rfl := Option.some_inj.mp (htable.symm.trans hmine)
      have hopen' : d.shared.callbacksSealed = false := by rw [hg]; exact hopen
      refine Machine.answers_stay (hsee nofun) (hlink.stay hthreads hstep ?_ ?_ ?_)
      · rw [hg]
        rfl
      · rw [hg]
        rfl
      · rw [hl', hm]
        refine ⟨rfl, hopen', ?_⟩
        rw [hg]
        exact Function.update_self ..
  | store =>
      have hm := hrel.called id
      rw [hm] at hrel
      obtain ⟨-, hopen, hmine⟩ := hrel
      -- the pointer is stored under the mutex, with the seal still open
      have hserve : a.shared.apply (.set kind cb) =
          ({ a.shared with table := a.shared.table.set kind cb }, .applied true) := by
        simp [Registry.apply, hlink.sealed, hopen]
      refine answered_by .serve (by rw [hm]; rfl) ?_ ?_
      · rw [hsee nofun, registrySee, hm]
      · rw [hserve]
        refine hlink.move hthreads hstep ?_ ⟨?_, ?_⟩ ?_
        · rw [hg]
          exact hlink.sealed
        · rw [hg]
          exact hmine
        · intro u hu
          rw [hg] at hu
          obtain rfl := Option.some_inj.mp hu
          rw [hl']
          trivial
        · rw [hl']
          exact ⟨rfl, rfl⟩
  -- behind the point where it was served a setter only reports
  | applied =>
      obtain ⟨result, hm⟩ := hrel.served trivial
      rw [hm] at hrel
      obtain ⟨-, rfl⟩ := hrel
      refine answered_by .report (by rw [hm]; rfl) ?_ ?_
      · rw [hsee nofun, registrySee, hm]
        rfl
      · refine hlink.quiet hthreads hstep (by rw [hg]) (by rw [hg]) ?_
        rw [hl']
        rfl
  | refused =>
      obtain ⟨result, hm⟩ := hrel.served trivial
      rw [hm] at hrel
      refine Machine.answers_stay (hsee nofun) (hlink.stay hthreads hstep ?_ ?_ ?_)
      · rw [hg]
      · rw [hg]
      · rw [hl', hm]
        exact ⟨rfl, hrel.2⟩
  | reject =>
      obtain ⟨result, hm⟩ := hrel.served trivial
      rw [hm] at hrel
      obtain ⟨-, rfl⟩ := hrel
      refine answered_by .report (by rw [hm]; rfl) ?_ ?_
      · rw [registrationSee, hl, registrySee, hm]
        rfl
      · refine hlink.quiet hthreads hstep (by rw [hg]) (by rw [hg]) ?_
        rw [hl']
        rfl

/-- The seal is served at its store, a reader at its atomic load. -/
theorem answered_move {move : RegistrationMove φ} (hlink : Linked c a)
    (hthreads : ∀ u, u ≠ t → d.threads u = c.threads u)
    (hstep : RegistrationStep t c.shared (c.threads t) move d.shared (d.threads t)) :
    Answered d a (registrationSee c (t, move)) := by
  have hrel := hlink.threads t
  have hcases := hstep
  generalize hl : c.threads t = l at hcases hrel
  generalize hl' : d.threads t = l' at hcases
  generalize hg : d.shared = g' at hcases
  cases hcases with
  | call call =>
      cases hm : a.threads t with
      | idle =>
          refine answered_by (.call call) (by rw [hm]; rfl) ?_ ?_
          · rw [registrationSee, hl, registrySee, hm]
          · refine hlink.quiet hthreads hstep (by rw [hg]) (by rw [hg]) ?_
            rw [hl']
            cases call with
            | set kind cb => exact ⟨rfl, trivial⟩
            | sealCallbacks => rfl
            | load => rfl
      | _ =>
          rw [hm] at hrel
          exact hrel.elim
  | setter hsetter =>
      subst hg hl'
      exact answered_setter hlink hl hthreads hsetter
  | lockSeal hfree =>
      refine Machine.answers_stay (by rw [registrationSee, hl])
        (hlink.stay hthreads hstep (by rw [hg]) (by rw [hg]) ?_)
      rw [hl']
      cases hm : a.threads t with
      | called call =>
          rw [hm] at hrel
          exact hrel
      | _ =>
          rw [hm] at hrel
          exact hrel.elim
  -- the seal is served at its store, under the mutex
  | storeSeal =>
      cases hm : a.threads t with
      | called call =>
          rw [hm] at hrel
          obtain rfl : call = .sealCallbacks := hrel
          refine answered_by .serve (by rw [hm]; rfl) ?_ ?_
          · rw [registrationSee, hl, registrySee, hm]
          · have hknows := hlink.table.mono (registrationFrame_step hlink.mutex hthreads hstep)
            refine hlink.move hthreads hstep (by rw [hg]; rfl) ?_ ?_
            · rw [hg]
              exact hknows
            · rw [hl']
              exact ⟨rfl, rfl⟩
      | _ =>
          rw [hm] at hrel
          exact hrel.elim
  | unlockSeal =>
      cases hm : a.threads t with
      | served call result =>
          rw [hm] at hrel
          obtain ⟨rfl, rfl⟩ := hrel
          refine answered_by .report (by rw [hm]; rfl) ?_ ?_
          · rw [registrationSee, hl, registrySee, hm]
            rfl
          · refine hlink.quiet hthreads hstep (by rw [hg]) (by rw [hg]) ?_
            rw [hl']
            rfl
      | _ =>
          rw [hm] at hrel
          exact hrel.elim
  -- a reader is served here; the table it will read is fixed, since what is published is not
  -- written again
  | loadPtr =>
      cases hm : a.threads t with
      | called call =>
          rw [hm] at hrel
          obtain rfl : call = .load := hrel
          refine answered_by .serve (by rw [hm]; rfl) ?_ ?_
          · rw [registrationSee, hl, registrySee, hm]
          · refine hlink.quiet hthreads hstep (by rw [hg]) (by rw [hg]) ?_
            rw [hl']
            exact ⟨rfl, a.shared.table, rfl,
              hlink.table.mono (registrationFrame_step hlink.mutex hthreads hstep)⟩
      | _ =>
          rw [hm] at hrel
          exact hrel.elim
  | deref ptr table htable =>
      cases hm : a.threads t with
      | served call result =>
          rw [hm] at hrel
          obtain ⟨rfl, known, rfl, hknows⟩ := hrel
          obtain rfl := Option.some_inj.mp (htable.symm.trans hknows.1)
          refine answered_by .report (by rw [hm]; rfl) ?_ ?_
          · rw [registrationSee, hl, registrySee, hm]
            rfl
          · refine hlink.quiet hthreads hstep (by rw [hg]) (by rw [hg]) ?_
            rw [hl']
            rfl
      | _ =>
          rw [hm] at hrel
          exact hrel.elim
  | ret result =>
      cases hm : a.threads t with
      | returning result' =>
          rw [hm] at hrel
          obtain rfl : result = result' := hrel
          refine answered_by .ret (by rw [hm]; rfl) ?_ ?_
          · rw [registrationSee, hl, registrySee, hm]
          · refine hlink.quiet hthreads hstep (by rw [hg]) (by rw [hg]) ?_
            rw [hl']
            trivial
      | _ =>
          rw [hm] at hrel
          exact hrel.elim

/-- The code simulates the object. -/
theorem registration_simulation :
    Machine.Simulation (registrationMachine ι φ) (registryMachine ι φ) registrationSee registrySee
      Linked where
  start := by
    refine ⟨fun t => iff_of_false ?_ id, rfl, ⟨rfl, fun u hu => ?_⟩, fun t => trivial⟩
    · intro h
      cases h
    · cases hu
  step := by
    rintro c a ⟨t, move⟩ d hlink hnext
    obtain ⟨hstep, hthreads⟩ := Program.next_eq_some hnext
    exact answered_move hlink hthreads (registrationStep_cases hstep)

end

end LlingrKafka.Bridge
