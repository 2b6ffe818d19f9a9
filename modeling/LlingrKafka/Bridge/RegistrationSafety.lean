import LlingrKafka.Bridge.RegistrationOrder

/-!
# What a host may rely on when it registers

Consequences of the linked object for the code itself, along every run:

* no two goroutines are ever about to access one set without synchronisation, one
  of them writing it, so the atomic pointer is the only edge a reader needs;
* a registration that was applied stays published until another call sets the same
  callback: concurrent setters do not lose each other's field;
* after the seal neither the published pointer nor the set behind it changes.

`Presents` connects the object to the one-step `Registration` of `Callbacks.lean`,
which only keeps which pointers are non-nil.
-/

namespace LlingrKafka.Bridge

variable {ι φ : Type*}

/-- The sets the next step of goroutine `t` writes in place. -/
def RegistrationAct.writes (t : ι) : RegistrationAct ι φ → Option ι
  | .setter _ _ (.copy _) | .setter _ _ .mutate => some t
  | _ => none

/-- The sets it reads in place. -/
def RegistrationAct.reads (t : ι) : RegistrationAct ι φ → Option ι
  | .setter _ _ (.copy ptr) | .reader (.deref ptr) => ptr
  | .setter _ _ .mutate => some t
  | _ => none

/-- The setter of `Callbacks.lean`. -/
def CallbackKind.register : CallbackKind → Registration → Registration
  | .process => llingrOnProcess
  | .deadletter => llingrOnDeadletter
  | .metrics => llingrOnMetrics
  | .shutdown => llingrOnShutdown
  | .log => llingrOnLog
  | .bandwidth => llingrOnBandwidth

/-- The one-step registration of `Callbacks.lean` keeps what is non-nil. -/
structure Presents (reg : Registration) (object : Registry φ) : Prop where
  set : reg.loadCallbacks = object.table.present
  sealed : reg.callbacksSealed = object.sealed

theorem Presents.register {reg : Registration} {object : Registry φ} (h : Presents reg object)
    (kind : CallbackKind) (cb : φ) :
    Presents (kind.register reg) (object.apply (.set kind (some cb))).1 := by
  obtain ⟨hset, hsealed⟩ := h
  cases hopen : object.sealed with
  | true =>
      rw [hopen] at hsealed
      have hreg : kind.register reg = reg := by
        cases kind <;> exact congrArg Prod.fst (Registration.setCallback_sealed _ hsealed)
      rw [hreg, Registry.apply, hopen, if_pos rfl]
      exact ⟨hset, hsealed.trans hopen.symm⟩
  | false =>
      rw [hopen] at hsealed
      rw [Registry.apply, hopen, if_neg Bool.false_ne_true]
      constructor
      · cases kind <;> simp only [CallbackKind.register, llingrOnProcess, llingrOnDeadletter,
          llingrOnMetrics, llingrOnShutdown, llingrOnLog, llingrOnBandwidth,
          Registration.loadCallbacks_setCallback _ hsealed, hset] <;> rfl
      · cases kind <;> simp only [CallbackKind.register, llingrOnProcess, llingrOnDeadletter,
          llingrOnMetrics, llingrOnShutdown, llingrOnLog, llingrOnBandwidth,
          Registration.callbacksSealed_setCallback, hsealed]

theorem Presents.sealCallbacks {reg : Registration} {object : Registry φ}
    (h : Presents reg object) :
    Presents reg.sealCallbacks (object.apply .sealCallbacks).1 :=
  ⟨h.set, rfl⟩

/-- A call that does not set this callback leaves it. -/
theorem Registry.get_apply {kind : CallbackKind} {call : RegistrationCall φ}
    (hcall : ∀ cb, call ≠ .set kind cb) (reg : Registry φ) :
    (reg.apply call).1.table.get kind = reg.table.get kind := by
  cases call with
  | set other cb =>
      have hne : kind ≠ other := by
        rintro rfl
        exact hcall cb rfl
      cases hsealed : reg.sealed with
      | true => simp [apply, hsealed]
      | false => simpa [apply, hsealed] using CallbackTable.get_set_of_ne hne cb reg.table
  | sealCallbacks => rfl
  | load => rfl

/-- A registration that is applied is published. -/
theorem Registry.get_apply_set {kind : CallbackKind} {cb : Option φ} {reg : Registry φ}
    (happlied : (reg.apply (.set kind cb)).2 = .applied true) :
    (reg.apply (.set kind cb)).1.table.get kind = cb := by
  cases hsealed : reg.sealed with
  | true => simp [apply, hsealed] at happlied
  | false => simp [apply, hsealed]

/-- Calls that set other callbacks leave this one. -/
theorem get_replay_append {kind : CallbackKind} {before rest : List (ι × RegistrationCall φ)}
    (hrest : ∀ entry ∈ rest, ∀ cb, entry.2 ≠ .set kind cb) :
    (replay (before ++ rest)).table.get kind = (replay before).table.get kind := by
  induction rest using List.reverseRecOn with
  | nil => rw [List.append_nil]
  | append_singleton rest entry ih =>
      have hearlier : ∀ entry ∈ rest, ∀ cb, entry.2 ≠ .set kind cb := by
        intro other hmem
        exact hrest other (List.mem_append_left _ hmem)
      have hentry := hrest entry (List.mem_append_right _ (List.mem_singleton_self entry))
      rw [← ih hearlier, ← List.append_assoc, replay, List.foldl_append]
      exact Registry.get_apply hentry _

section

variable [DecidableEq ι] {labels : List (ι × RegistrationMove φ)} {c d : RegistrationCfg ι φ}

theorem exists_linked (hreach : (registrationMachine ι φ).Reachable c) :
    ∃ a : CallerCfg ι φ, Linked c a := by
  obtain ⟨labels, hrun⟩ := hreach
  obtain ⟨_, a, _, _, hlink⟩ := registration_simulation.run registration_simulation.start hrun
  exact ⟨a, hlink⟩

omit [DecidableEq ι] in
/-- A goroutine only goes through a pointer to a set that is not written any more, or
to its own. -/
theorem settled_of_reads {a : CallerCfg ι φ} (hlink : Linked c a) {t owner : ι}
    (hreads : (c.threads t).reads t = some owner) : owner = t ∨ (c.threads owner).Settled := by
  have hrel := hlink.threads t
  generalize c.threads t = l at hreads hrel
  cases l with
  | setter kind cb pc =>
      cases pc with
      | copy ptr =>
          rw [hrel.called id] at hrel
          obtain ⟨-, -, rfl⟩ := hrel
          exact .inr (hlink.table.2 owner hreads)
      | mutate => exact .inl (Option.some_inj.mp hreads).symm
      | _ => cases hreads
  | reader pc =>
      cases pc with
      | load => cases hreads
      | deref ptr =>
          cases hm : a.threads t with
          | served call result =>
              rw [hm] at hrel
              obtain ⟨_, _, _, _, hsettled⟩ := hrel
              exact .inr (hsettled owner hreads)
          | _ =>
              rw [hm] at hrel
              exact hrel.elim
  | _ => cases hreads

omit [DecidableEq ι] in
theorem RegistrationAct.not_settled_of_writes {t owner : ι} {l : RegistrationAct ι φ}
    (hwrites : l.writes t = some owner) : owner = t ∧ ¬ l.Settled := by
  cases l with
  | setter kind cb pc =>
      cases pc with
      | copy ptr => exact ⟨(Option.some_inj.mp hwrites).symm, id⟩
      | mutate => exact ⟨(Option.some_inj.mp hwrites).symm, id⟩
      | _ => cases hwrites
  | _ => cases hwrites

/-- The seal is not lifted, and after it nothing is published. -/
theorem sealed_step {t : ι} {move : RegistrationMove φ} {a : CallerCfg ι φ} (hlink : Linked c a)
    (hsealed : c.shared.callbacksSealed = true)
    (h : RegistrationStep t c.shared (c.threads t) move d.shared (d.threads t)) :
    d.shared.callbacksSealed = true ∧
      d.shared.registeredCallbacks = c.shared.registeredCallbacks := by
  have hrel := hlink.threads t
  generalize c.threads t = l at h hrel
  generalize d.threads t = l' at h
  generalize d.shared = g' at h
  cases h with
  | setter hsetter =>
      cases hsetter with
      | store =>
          rw [hrel.called id] at hrel
          have hopen := hrel.2.1
          rw [hsealed] at hopen
          cases hopen
      | _ => exact ⟨hsealed, rfl⟩
  | storeSeal => exact ⟨rfl, rfl⟩
  | _ => exact ⟨hsealed, rfl⟩

/-- What a host may rely on in a run that ends in `c`. -/
structure RegistrationSafety (labels : List (ι × RegistrationMove φ)) (c : RegistrationCfg ι φ) :
    Prop where
  /-- The set a goroutine is about to write is accessed by no other one. -/
  race_free : ∀ t u owner, t ≠ u → (c.threads t).writes t = some owner →
    (c.threads u).writes u ≠ some owner ∧ (c.threads u).reads u ≠ some owner
  /-- A pointer that was loaded leads to a set. -/
  no_fault : ∀ t ptr, c.threads t = .reader (.deref ptr) → ∃ table, c.shared.deref ptr = some table
  /-- A callback that was applied, and that no other call sets, is the published one. -/
  kept : ∀ t kind cb,
    .call t (.set kind cb) ∈
      (registrationMachine ι φ).trace registrationSee (registrationMachine ι φ).start labels →
    .ret t (.applied true) ∈
      (registrationMachine ι φ).trace registrationSee (registrationMachine ι φ).start labels →
    (∀ u cb', .call u (.set kind cb') ∈
      (registrationMachine ι φ).trace registrationSee (registrationMachine ι φ).start labels →
        u = t) →
    ∃ table, c.shared.deref c.shared.registeredCallbacks = some table ∧ table.get kind = cb
  /-- From the seal on, what is published stays, with everything behind it. -/
  sealed_stays : ∀ earlier later b, labels = earlier ++ later →
    (registrationMachine ι φ).exec (registrationMachine ι φ).start earlier = some b →
    b.shared.callbacksSealed = true →
    c.shared.callbacksSealed = true ∧
      c.shared.registeredCallbacks = b.shared.registeredCallbacks ∧
      c.shared.deref c.shared.registeredCallbacks = b.shared.deref b.shared.registeredCallbacks

theorem sealed_stays_of_exec {b : RegistrationCfg ι φ}
    (hreach : (registrationMachine ι φ).Reachable b) (hsealed : b.shared.callbacksSealed = true)
    (hrun : (registrationMachine ι φ).exec b labels = some c) :
    c.shared.callbacksSealed = true ∧
      c.shared.registeredCallbacks = b.shared.registeredCallbacks ∧
      c.shared.deref c.shared.registeredCallbacks =
        b.shared.deref b.shared.registeredCallbacks := by
  obtain ⟨a, hlink⟩ := exists_linked hreach
  have key : ((registrationMachine ι φ).Reachable c ∧ c.shared.callbacksSealed = true) ∧
      c.shared.registeredCallbacks = b.shared.registeredCallbacks ∧
      Knows c b.shared.registeredCallbacks a.shared.table := by
    refine Machine.inv_of_exec (M := registrationMachine ι φ)
      (I := fun c => ((registrationMachine ι φ).Reachable c ∧ c.shared.callbacksSealed = true) ∧
        c.shared.registeredCallbacks = b.shared.registeredCallbacks ∧
        Knows c b.shared.registeredCallbacks a.shared.table) ?_
      ⟨⟨hreach, hsealed⟩, rfl, hlink.table⟩ hrun
    rintro e ⟨t, move⟩ f ⟨⟨hreach, hsealed⟩, hregistered, hknows⟩ hnext
    obtain ⟨a', hlink'⟩ := exists_linked hreach
    obtain ⟨hstep, hothers⟩ := Program.next_eq_some hnext
    have hstep := registrationStep_cases hstep
    obtain ⟨hsealed', hsame⟩ := sealed_step hlink' hsealed hstep
    exact ⟨⟨hreach.next hnext, hsealed'⟩, hsame.trans hregistered,
      hknows.mono (registrationFrame_step hlink'.mutex hothers hstep)⟩
  obtain ⟨⟨_, hsealed'⟩, hregistered, hknows⟩ := key
  exact ⟨hsealed', hregistered, by rw [hregistered, hknows.1, hlink.table.1]⟩

/-- **Registration is safe** under every interleaving of setters, seals and readers. -/
theorem registration_safe
    (hrun : (registrationMachine ι φ).exec (registrationMachine ι φ).start labels = some c) :
    RegistrationSafety labels c := by
  obtain ⟨answer, a, hanswer, hseen, hlink⟩ :=
    registration_simulation.run registration_simulation.start hrun
  refine ⟨?_, ?_, ?_, ?_⟩
  -- a thread that writes has not published its cell
  · intro t u owner htu hwrites
    obtain ⟨rfl, hopen⟩ := RegistrationAct.not_settled_of_writes hwrites
    refine ⟨fun hother => htu (RegistrationAct.not_settled_of_writes hother).1, fun hreads => ?_⟩
    rcases settled_of_reads hlink hreads with rfl | hsettled
    · exact htu rfl
    · exact hopen hsettled
  · intro t ptr hl
    have hrel := hlink.threads t
    rw [hl] at hrel
    cases hm : a.threads t with
    | served call result =>
        rw [hm] at hrel
        obtain ⟨_, table, _, hknows⟩ := hrel
        exact ⟨table, hknows.1⟩
    | _ =>
        rw [hm] at hrel
        exact hrel.elim
  -- the answer is read off the order that linearizes the run
  · intro t kind cb hcall hret hothers
    obtain ⟨hlin, _⟩ := linearization_of_run hanswer
    rw [hseen] at hlin
    refine ⟨a.shared.table, hlink.table.1, ?_⟩
    obtain ⟨call, ⟨before, after, horder, hresult⟩, _⟩ := hlin.answers t _ hret
    have hmem : (t, call) ∈ before ++ (t, call) :: after := by simp
    obtain rfl := hlin.single t _ _ (hlin.made t call (horder ▸ hmem)) hcall
    -- behind the registration nobody sets its kind: not another call, and not itself again
    have hafter : ∀ entry ∈ after, ∀ cb', entry.2 ≠ .set kind cb' := by
      rintro ⟨u, call⟩ hentry cb' rfl
      have hu : (u, RegistrationCall.set kind cb') ∈ before ++ (t, .set kind cb) :: after := by
        simp [hentry]
      obtain rfl := hothers u cb' (hlin.made u _ (horder ▸ hu))
      have honce := hlin.once
      rw [horder, List.map_append, List.map_cons] at honce
      have htail := (List.nodup_append.mp honce).2.1
      exact (List.nodup_cons.mp htail).1 (List.mem_map.mpr ⟨_, hentry, rfl⟩)
    rw [← hlin.outcome, horder, ← List.singleton_append, ← List.append_assoc,
      get_replay_append hafter, replay, List.foldl_append]
    exact Registry.get_apply_set hresult.symm
  · rintro earlier later b rfl hearlier hsealed
    obtain ⟨b', hb', hlater⟩ := Machine.exec_append.mp hrun
    rw [hearlier, Option.some_inj] at hb'
    subst hb'
    exact sealed_stays_of_exec ⟨earlier, hearlier⟩ hsealed hlater

theorem registration_safe_lateSetter :
    ∃ c, (registrationMachine ℕ ℕ).exec (registrationMachine ℕ ℕ).start lateSetterRun = some c ∧
      c.shared.deref c.shared.registeredCallbacks =
        some ⟨some 8, none, none, none, some 7, none⟩ ∧
      RegistrationSafety lateSetterRun c :=
  ⟨_, rfl, rfl, registration_safe rfl⟩

end

end LlingrKafka.Bridge
