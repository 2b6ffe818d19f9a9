import LlingrKafka.Engine.Delivery
import LlingrKafka.Engine.Publication
import LlingrKafka.Wire.Verdict

/-!
# No silent success

After a successful `build` the process and dead-letter callbacks are registered for
good (`Registers`) and the published handler set has a dead-letter handler, so neither
of the defaults that would let a message pass unhandled is ever taken: each of the two
calls ends with the handler's own verdict.  What a completed offset stands for is then
read off the run: the offset was completed after a nil, the nil was stored by a call,
and that call's handler said Ok.
-/

namespace LlingrKafka.Engine

open Bridge Memory Utf8 Wire

variable {ι κ T : Type*} [DecidableEq ι]

/-! ## What a successful build leaves -/

/-- Both message callbacks are registered. -/
def Registers (g : EngineShared ι) : Prop :=
  g.registration.loadCallbacks.process = true ∧ g.registration.loadCallbacks.deadletter = true

/-- Sealing comes after registering. -/
def SealInv (g : EngineShared ι) : Prop :=
  g.registration.callbacksSealed = true → Registers g

/-- A call that has registered its trampolines. -/
def SealOwn (_ : ι) (g : EngineShared ι) : BuildAct ι → Prop
  | .call _ .init | .call _ .setInited | .call _ (.unlock (.ok _))
  | .call _ (.returned (.ok _)) => Registers g
  | _ => True

omit [DecidableEq ι] in
/-- Registering the trampolines registers both message callbacks, unless the
registration is sealed. -/
theorem registers_registerTrampolines {g : EngineShared ι} (bandwidthEnabled : Bool)
    (hinv : SealInv g) :
    Registers { g with registration := registerTrampolines bandwidthEnabled g.registration } := by
  cases hsealed : g.registration.callbacksSealed with
  | true =>
      obtain ⟨hprocess, hdeadletter⟩ := hinv hsealed
      cases bandwidthEnabled with
      | false => simp [Registers, registerTrampolines, llingrOnProcess, llingrOnDeadletter,
          llingrOnMetrics, llingrOnShutdown, llingrOnLog, hsealed, hprocess, hdeadletter]
      | true => simp [Registers, registerTrampolines, llingrOnProcess, llingrOnDeadletter,
          llingrOnMetrics, llingrOnShutdown, llingrOnLog, llingrOnBandwidth, hsealed, hprocess,
          hdeadletter]
  | false =>
      cases bandwidthEnabled with
      | false => simp [Registers, registerTrampolines, llingrOnProcess, llingrOnDeadletter,
          llingrOnMetrics, llingrOnShutdown, llingrOnLog, Registration.setCallback, hsealed,
          Registration.loadCallbacks]
      | true => simp [Registers, registerTrampolines, llingrOnProcess, llingrOnDeadletter,
          llingrOnMetrics, llingrOnShutdown, llingrOnLog, llingrOnBandwidth,
          Registration.setCallback, hsealed, Registration.loadCallbacks]

/-- What one step of `build` does for the registration: its own part is kept, and what
is registered stays registered. -/
theorem seal_step {t : ι} {attempt : Attempt} {g g' : EngineShared ι} {pc pc' : BuildPc ι}
    (hinv : SealInv g) (hown : SealOwn t g (.call attempt pc))
    (h : BuildStep t attempt g pc g' pc') :
    SealInv g' ∧ SealOwn t g' (.call attempt pc') ∧ (Registers g → Registers g') := by
  cases h with
  | register realised =>
      have hregisters := registers_registerTrampolines realised.isSome hinv
      exact ⟨fun _ => hregisters, hregisters, fun _ => hregisters⟩
  | initialised => exact ⟨fun _ => hown, hown, fun h => h⟩
  | setInited => exact ⟨hinv, hown, fun h => h⟩
  | unlock result =>
      cases result with
      | ok value => exact ⟨hinv, hown, fun h => h⟩
      | error err => exact ⟨hinv, trivial, fun h => h⟩
  | _ => exact ⟨hinv, trivial, fun h => h⟩

omit [DecidableEq ι] in
theorem SealOwn.mono {u : ι} {g g' : EngineShared ι} {l : BuildAct ι}
    (hkeeps : Registers g → Registers g') (h : SealOwn u g l) : SealOwn u g' l := by
  unfold SealOwn at h ⊢
  split <;> first | exact hkeeps h | trivial

variable {c : BuildCfg ι}

theorem seal_holds (hreach : (buildMachine ι).Reachable c) :
    Program.Holds SealInv SealOwn c := by
  obtain ⟨labels, hrun⟩ := hreach
  have hstart : Program.Holds SealInv SealOwn (buildMachine ι).start := by
    refine ⟨fun hsealed => ?_, fun t => trivial⟩
    cases hsealed
  refine Program.inv_of_own_and_others (G := fun _ _ _ _ => True) ?_ ?_ hstart
    (Machine.guarded_of_forall (fun _ _ => trivial) _ labels) hrun
  · intro t g l move g' l' hinv hown _ hstep
    rcases buildStep_cases hstep with ⟨_, rfl, rfl, rfl⟩ | ⟨attempt, pc, pc', rfl, rfl, hcall⟩
    · exact ⟨hinv, trivial⟩
    · obtain ⟨hinv', hown', _⟩ := seal_step hinv hown hcall
      exact ⟨hinv', hown'⟩
  · intro t u g l m move g' l' _ hinv hown hother _ hstep
    rcases buildStep_cases hstep with ⟨_, _, _, rfl⟩ | ⟨attempt, pc, pc', rfl, rfl, hcall⟩
    · exact hother
    · exact hother.mono (seal_step hinv hown hcall).2.2

/-- After a successful `build`, both callbacks are registered and the published handler
set is the user's, dead-letter handler included. -/
theorem built_published {t : ι} (hreach : (buildMachine ι).Reachable c) (hbuilt : Built c t)
    (user : UserCalls) :
    Registers c.shared ∧ ∃ topic, publishedSet c.shared user =
      some ⟨topic, fun _ => user.process, some fun _ _ => user.handle⟩ := by
  have hown := (build_holds hreach).2 t
  have hseal := (seal_holds hreach).2 t
  obtain ⟨_, hmine, _, _, box, _, hstored, _, realised, _, hhandlers⟩ :=
    published_of_succeeding hown (succeeding_of_result hbuilt)
  refine ⟨?_, box.handlers.topic, ?_⟩
  · unfold Built BuildAct.result at hbuilt
    split at hbuilt
    · rename_i result hlocal
      obtain rfl := Option.some_inj.mp hbuilt
      rw [hlocal] at hseal
      exact hseal
    · cases hbuilt
  · simp only [publishedSet, hmine, hstored, Option.bind_some, Option.map_some]
    rw [hhandlers]
    rfl

/-! ## The two calls under a built engine -/

section Calls

variable {t : ι} {valueOf : T → Option Bytes} {metaOf : T → RecordMeta} {user : UserCalls}
  {m : Heap} {msg : Envelope T} {reason : Option Bytes}

theorem processMessage_verdict (hreach : (buildMachine ι).Reachable c) (hbuilt : Built c t)
    {ret : ProcessReturn}
    (hret : processMessage c.shared valueOf metaOf user m msg = some ret) :
    ProcessVerdict user.process ret := by
  obtain ⟨hregisters, topic, hset⟩ := built_published hreach hbuilt user
  rw [processMessage, hset] at hret
  obtain ⟨_, hverdict⟩ := makeProcessMessage_returned hregisters.1 hret
  exact hverdict

theorem processMessage_total (hreach : (buildMachine ι).Reachable c) (hbuilt : Built c t)
    (hpackable : Packable (metaOf msg.payload).headers) :
    ∃ ret, processMessage c.shared valueOf metaOf user m msg = some ret := by
  obtain ⟨hregisters, topic, hset⟩ := built_published hreach hbuilt user
  rw [processMessage, hset]
  obtain ⟨ret, hret, _⟩ := makeProcessMessage_total hregisters.1 hpackable
  exact ⟨ret, hret⟩

theorem writeDeadLetter_verdict (hreach : (buildMachine ι).Reachable c) (hbuilt : Built c t)
    {ret : Heap × Option Bytes}
    (hret : writeDeadLetter c.shared valueOf metaOf user m msg reason = some ret) :
    DeadletterVerdict user.handle ret.2 := by
  obtain ⟨hregisters, topic, hset⟩ := built_published hreach hbuilt user
  rw [writeDeadLetter, hset] at hret
  obtain ⟨_, hverdict⟩ := makeWriteDeadLetter_returned hregisters.2 rfl hret
  exact hverdict

theorem writeDeadLetter_total (hreach : (buildMachine ι).Reachable c) (hbuilt : Built c t)
    (hpackable : Packable (metaOf msg.payload).headers) :
    ∃ ret, writeDeadLetter c.shared valueOf metaOf user m msg reason = some ret := by
  obtain ⟨hregisters, topic, hset⟩ := built_published hreach hbuilt user
  let published : HandlerSet := ⟨topic, fun _ => user.process, some fun _ _ => user.handle⟩
  have hhandle : published.deadLetter = some fun _ _ => user.handle := rfl
  rw [writeDeadLetter, hset]
  obtain ⟨ret, hret, _⟩ := makeWriteDeadLetter_total hregisters.2 hhandle hpackable
  exact ⟨ret, hret⟩

end Calls

/-! ## Runs -/

variable [DecidableEq κ] {valueOf : T → Option Bytes} {metaOf : T → RecordMeta}
  {msgs : κ → Envelope T} {s s' : DeliveryState ι κ} {labels : List (DeliveryMove ι κ)}

/-- The steps of the machine. -/
inductive DeliveryStep (valueOf : T → Option Bytes) (metaOf : T → RecordMeta)
    (msgs : κ → Envelope T) (s : DeliveryState ι κ) :
    DeliveryMove ι κ → DeliveryState ι κ → Prop
  | build (t : ι) (move : BuildMove) (c : BuildCfg ι)
      (h : (buildMachine ι).next s.build (t, move) = some c) :
      DeliveryStep valueOf metaOf msgs s (.build t move) { s with build := c }
  | process (t : ι) (k : κ) (user : UserCalls) (ret : ProcessReturn) (hbuilt : Built s.build t)
      (hfresh : s.processed k = none)
      (hret : processMessage s.build.shared valueOf metaOf user s.heap (msgs k) = some ret) :
      DeliveryStep valueOf metaOf msgs s (.process t k user)
        { s with
          heap := ret.heap
          processed := Function.update s.processed k (some ret.err)
          traits := Function.update s.traits k (ret.traits.getD 0) }
  | writeDeadLetter (t : ι) (k : κ) (user : UserCalls) (reason : Bytes)
      (ret : Heap × Option Bytes) (hbuilt : Built s.build t)
      (hfailed : s.processed k = some (some reason)) (hfresh : s.deadLettered k = none)
      (hret : writeDeadLetter s.build.shared valueOf metaOf user s.heap (msgs k) (some reason) =
        some ret) :
      DeliveryStep valueOf metaOf msgs s (.writeDeadLetter t k user)
        { s with
          heap := ret.1
          deadLettered := Function.update s.deadLettered k (some ret.2) }
  | complete (k : κ) (hnil : s.processed k = some none ∨ s.deadLettered k = some none) :
      DeliveryStep valueOf metaOf msgs s (.complete k)
        { s with completed := Function.update s.completed k true }

theorem deliveryStep_cases {a : DeliveryMove ι κ}
    (h : (deliveryMachine valueOf metaOf msgs).next s a = some s') :
    DeliveryStep valueOf metaOf msgs s a s' := by
  simp only [deliveryMachine] at h
  unfold deliveryStep at h
  split at h
  · obtain ⟨c, hnext, rfl⟩ := Option.map_eq_some_iff.mp h
    exact .build _ _ c hnext
  · split at h
    · rename_i hcond
      obtain ⟨ret, hret, rfl⟩ := Option.map_eq_some_iff.mp h
      exact .process _ _ _ ret hcond.1 hcond.2 hret
    · cases h
  · split at h
    · rename_i hfailed hfresh
      split at h
      · rename_i hbuilt
        obtain ⟨ret, hret, rfl⟩ := Option.map_eq_some_iff.mp h
        exact .writeDeadLetter _ _ _ _ ret hbuilt hfailed hfresh hret
      · cases h
    · cases h
  · split at h
    · rename_i hnil
      obtain rfl := Option.some_inj.mp h
      exact .complete _ hnil
    · cases h

/-- The builds of a run are a run of `build`. -/
theorem build_reachable (hreach : (deliveryMachine valueOf metaOf msgs).Reachable s) :
    (buildMachine ι).Reachable s.build := by
  refine Machine.inv_of_reachable (I := fun s => (buildMachine ι).Reachable s.build)
    (Machine.reachable_start _) ?_ hreach
  intro s a s' hs hnext
  cases deliveryStep_cases hnext with
  | build t move c hbuild => exact hs.next hbuild
  | process t k user ret hbuilt hfresh hret => exact hs
  | writeDeadLetter t k user reason ret hbuilt hfailed hfresh hret => exact hs
  | complete k hnil => exact hs

/-- In the run, a call of the process handler for `k` came to Ok with these traits. -/
def ProcessedOk (valueOf : T → Option Bytes) (metaOf : T → RecordMeta) (msgs : κ → Envelope T)
    (labels : List (DeliveryMove ι κ)) (k : κ) (traits : BitVec 64) : Prop :=
  ∃ before t user after, (deliveryMachine valueOf metaOf msgs).Takes
    (deliveryMachine valueOf metaOf msgs).start labels before (.process t k user) after ∧
      user.process = .ret (.ok traits)

/-- In the run, a call of the dead-letter handler for `k` came to Ok. -/
def HandledOk (valueOf : T → Option Bytes) (metaOf : T → RecordMeta) (msgs : κ → Envelope T)
    (labels : List (DeliveryMove ι κ)) (k : κ) : Prop :=
  ∃ before t user after, (deliveryMachine valueOf metaOf msgs).Takes
    (deliveryMachine valueOf metaOf msgs).start labels before (.writeDeadLetter t k user) after ∧
      user.handle = .ret (.ok ())

/-- A nil of `ProcessMessage` was stored by a call whose handler said Ok. -/
theorem processedOk_of_nil {k : κ}
    (hrun : (deliveryMachine valueOf metaOf msgs).exec
      (deliveryMachine valueOf metaOf msgs).start labels = some s)
    (hnil : s.processed k = some none) :
    ∃ traits, ProcessedOk valueOf metaOf msgs labels k traits := by
  have hstart : (deliveryMachine (ι := ι) valueOf metaOf msgs).start.processed k ≠ some none := by
    intro h
    cases h
  obtain ⟨before, a, after, htakes, hbefore, hafter⟩ :=
    Machine.exists_takes (P := fun s => s.processed k = some none) hstart hnil hrun
  have hreach := build_reachable htakes.reachable
  have hcases := deliveryStep_cases htakes.next
  cases hcases with
  | build t move c hbuild => exact absurd hafter hbefore
  | process t k' user ret hbuilt hfresh hret =>
      by_cases hk : k = k'
      · subst hk
        simp only [Function.update_self, Option.some_inj] at hafter
        obtain ⟨traits, hok⟩ := (processMessage_verdict hreach hbuilt hret).nil.mp hafter
        exact ⟨traits, before, t, user, _, htakes, hok⟩
      · simp only [Function.update_of_ne hk] at hafter
        exact absurd hafter hbefore
  | writeDeadLetter t k' user reason ret hbuilt hfailed hfresh hret =>
      exact absurd hafter hbefore
  | complete k' hnil => exact absurd hafter hbefore

/-- A nil of `WriteDeadLetter` was stored by a call whose handler said Ok. -/
theorem handledOk_of_nil {k : κ}
    (hrun : (deliveryMachine valueOf metaOf msgs).exec
      (deliveryMachine valueOf metaOf msgs).start labels = some s)
    (hnil : s.deadLettered k = some none) : HandledOk valueOf metaOf msgs labels k := by
  have hstart : (deliveryMachine (ι := ι) valueOf metaOf msgs).start.deadLettered k ≠
      some none := by
    intro h
    cases h
  obtain ⟨before, a, after, htakes, hbefore, hafter⟩ :=
    Machine.exists_takes (P := fun s => s.deadLettered k = some none) hstart hnil hrun
  have hreach := build_reachable htakes.reachable
  have hcases := deliveryStep_cases htakes.next
  cases hcases with
  | build t move c hbuild => exact absurd hafter hbefore
  | process t k' user ret hbuilt hfresh hret => exact absurd hafter hbefore
  | writeDeadLetter t k' user reason ret hbuilt hfailed hfresh hret =>
      by_cases hk : k = k'
      · subst hk
        simp only [Function.update_self, Option.some_inj] at hafter
        exact ⟨before, t, user, _, htakes,
          (writeDeadLetter_verdict hreach hbuilt hret).mp hafter⟩
      · simp only [Function.update_of_ne hk] at hafter
        exact absurd hafter hbefore
  | complete k' hnil => exact absurd hafter hbefore

/-- An offset is completed after a nil, which stays. -/
theorem nil_of_completed {k : κ} (hreach : (deliveryMachine valueOf metaOf msgs).Reachable s)
    (hcompleted : s.completed k = true) :
    s.processed k = some none ∨ s.deadLettered k = some none := by
  refine Machine.inv_of_reachable
    (I := fun s : DeliveryState ι κ => s.completed k = true →
      s.processed k = some none ∨ s.deadLettered k = some none) ?_ ?_ hreach hcompleted
  · intro h
    cases h
  · intro s a s' hs hnext hdone
    cases deliveryStep_cases hnext with
    | build t move c hbuild => exact hs hdone
    -- what is called for the first time had no result to lose
    | process t k' user ret hbuilt hfresh hret =>
        rcases hs hdone with hprocessed | hdeadLettered
        · by_cases hk : k = k'
          · subst hk
            rw [hfresh] at hprocessed
            cases hprocessed
          · exact .inl (by simpa only [Function.update_of_ne hk] using hprocessed)
        · exact .inr hdeadLettered
    | writeDeadLetter t k' user reason ret hbuilt hfailed hfresh hret =>
        rcases hs hdone with hprocessed | hdeadLettered
        · exact .inl hprocessed
        · by_cases hk : k = k'
          · subst hk
            rw [hfresh] at hdeadLettered
            cases hdeadLettered
          · exact .inr (by simpa only [Function.update_of_ne hk] using hdeadLettered)
    | complete k' hnil =>
        by_cases hk : k = k'
        · subst hk
          exact hnil
        · simp only [Function.update_of_ne hk] at hdone
          exact hs hdone

/-- What a call of the process handler adds to a message's traits: the value of an Ok. -/
def appliedTraits : Unwind (Except HandlerError (BitVec 64)) → BitVec 64
  | .ret (.ok traits) => traits
  | _ => 0

omit [DecidableEq ι] [DecidableEq κ] in
theorem getD_traits {outcome : Unwind (Except HandlerError (BitVec 64))} {ret : ProcessReturn}
    (h : ProcessVerdict outcome ret) : ret.traits.getD 0 = appliedTraits outcome := by
  by_cases hok : ∃ traits, outcome = .ret (.ok traits)
  · obtain ⟨traits, rfl⟩ := hok
    exact h.applied traits rfl
  · rw [h.nothing hok]
    unfold appliedTraits
    split
    · exact absurd ⟨_, rfl⟩ hok
    · rfl

/-- A message has the traits of its one `ProcessMessage`. -/
theorem traits_of_processed {k : κ} {t : ι} {user : UserCalls} {before after : DeliveryState ι κ}
    (htakes : (deliveryMachine valueOf metaOf msgs).Takes
      (deliveryMachine valueOf metaOf msgs).start labels before (.process t k user) after)
    (hrun : (deliveryMachine valueOf metaOf msgs).exec
      (deliveryMachine valueOf metaOf msgs).start labels = some s) :
    s.traits k = appliedTraits user.process := by
  have hafter : after.processed k ≠ none ∧ after.traits k = appliedTraits user.process := by
    have hreach := build_reachable htakes.reachable
    cases deliveryStep_cases htakes.next with
    | process _ _ _ ret hbuilt hfresh hret =>
        simp only [Function.update_self]
        exact ⟨Option.some_ne_none _, getD_traits (processMessage_verdict hreach hbuilt hret)⟩
  obtain ⟨later, hlater⟩ := htakes.exec_after hrun
  -- a message is processed once, so nothing writes its traits again
  refine (Machine.inv_of_exec (I := fun s : DeliveryState ι κ =>
    s.processed k ≠ none ∧ s.traits k = appliedTraits user.process) ?_ hafter hlater).2
  rintro s a s' ⟨hprocessed, htraits⟩ hnext
  cases deliveryStep_cases hnext with
  | build t move c hbuild => exact ⟨hprocessed, htraits⟩
  | process t' k' user' ret hbuilt hfresh hret =>
      have hk : k ≠ k' := by
        rintro rfl
        exact hprocessed hfresh
      simp only [Function.update_of_ne hk]
      exact ⟨hprocessed, htraits⟩
  | writeDeadLetter t' k' user' reason ret hbuilt hfailed hfresh hret =>
      exact ⟨hprocessed, htraits⟩
  | complete k' hnil => exact ⟨hprocessed, htraits⟩

/-- A message that was not processed has no traits. -/
theorem traits_of_unprocessed {k : κ}
    (hrun : (deliveryMachine valueOf metaOf msgs).exec
      (deliveryMachine valueOf metaOf msgs).start labels = some s)
    (hnone : ∀ before t user after, ¬ (deliveryMachine valueOf metaOf msgs).Takes
      (deliveryMachine valueOf metaOf msgs).start labels before (.process t k user) after) :
    s.traits k = 0 := by
  by_contra hne
  have hstart : ¬ (deliveryMachine (ι := ι) valueOf metaOf msgs).start.traits k ≠ 0 :=
    fun h => h rfl
  obtain ⟨before, a, after, htakes, hbefore, hafter⟩ :=
    Machine.exists_takes (P := fun s => s.traits k ≠ 0) hstart hne hrun
  have hcases := deliveryStep_cases htakes.next
  cases hcases with
  | build t move c hbuild => exact hbefore hafter
  | process t k' user ret hbuilt hfresh hret =>
      by_cases hk : k = k'
      · subst hk
        exact hnone _ _ _ _ htakes
      · simp only [Function.update_of_ne hk] at hafter
        exact hbefore hafter
  | writeDeadLetter t k' user reason ret hbuilt hfailed hfresh hret => exact hbefore hafter
  | complete k' hnil => exact hbefore hafter

/-- What the two calls guarantee for every message and every behaviour of the handlers:
nil means Ok, and the calls return. -/
structure CallsSound (g : EngineShared ι) (valueOf : T → Option Bytes) (metaOf : T → RecordMeta) :
    Prop where
  process : ∀ user m msg ret, processMessage g valueOf metaOf user m msg = some ret →
    ProcessVerdict user.process ret
  deadLetter : ∀ user m msg reason ret,
    writeDeadLetter g valueOf metaOf user m msg reason = some ret →
      DeadletterVerdict user.handle ret.2
  returns : ∀ user m (msg : Envelope T), Packable (metaOf msg.payload).headers →
    (∃ ret, processMessage g valueOf metaOf user m msg = some ret) ∧
      ∀ reason, ∃ ret, writeDeadLetter g valueOf metaOf user m msg reason = some ret

/-- An offset is completed only if one of the two handlers said Ok for its message, the
traits of a message are those of an Ok and nothing else, and under every successful
build each call returns nil exactly when its handler said Ok. -/
theorem noSilentSuccess (hrun : (deliveryMachine valueOf metaOf msgs).exec
      (deliveryMachine valueOf metaOf msgs).start labels = some s) :
    (∀ k, s.completed k = true →
      (∃ traits, ProcessedOk valueOf metaOf msgs labels k traits) ∨
        HandledOk valueOf metaOf msgs labels k) ∧
      (∀ k before t user after, (deliveryMachine valueOf metaOf msgs).Takes
        (deliveryMachine valueOf metaOf msgs).start labels before (.process t k user) after →
          s.traits k = appliedTraits user.process) ∧
      (∀ k, (∀ before t user after, ¬ (deliveryMachine valueOf metaOf msgs).Takes
        (deliveryMachine valueOf metaOf msgs).start labels before (.process t k user) after) →
          s.traits k = 0) ∧
      ∀ t, Built s.build t → CallsSound s.build.shared valueOf metaOf := by
  have hreach := build_reachable ⟨labels, hrun⟩
  refine ⟨fun k hcompleted => ?_, fun k before t user after htakes => ?_, fun k hnone => ?_,
    fun t hbuilt => ⟨?_, ?_, ?_⟩⟩
  · rcases nil_of_completed ⟨labels, hrun⟩ hcompleted with hnil | hnil
    · exact .inl (processedOk_of_nil hrun hnil)
    · exact .inr (handledOk_of_nil hrun hnil)
  · exact traits_of_processed htakes hrun
  · exact traits_of_unprocessed hrun hnone
  · intro user m msg ret hret
    exact processMessage_verdict hreach hbuilt hret
  · intro user m msg reason ret hret
    exact writeDeadLetter_verdict hreach hbuilt hret
  · intro user m msg hpackable
    exact ⟨processMessage_total hreach hbuilt hpackable,
      fun reason => writeDeadLetter_total hreach hbuilt hpackable⟩

/-- A message fails, its dead letter is taken, and its offset is completed; another one
succeeds with traits. -/
def deadLetteredRun : List (DeliveryMove ℕ ℕ) :=
  let plain : Attempt := ⟨"orders", none, none, false⟩
  let failing : UserCalls := ⟨.panic (.dropPanics .plain), .ret (.ok ())⟩
  let succeeding : UserCalls := ⟨.ret (.ok 0x400), .panic .plain⟩
  [.build 0 (.call plain), .build 0 .step, .build 0 (.abi 1), .build 0 .step, .build 0 .step,
    .build 0 (.converted false), .build 0 .step, .build 0 .step, .build 0 .step, .build 0 .step,
    .build 0 (.initReturns 0 ""), .build 0 .step, .build 0 .step, .process 0 7 failing,
    .process 0 8 succeeding, .writeDeadLetter 0 7 failing, .complete 8, .complete 7]

/-- Records without headers, whose key and value are one byte. -/
def smallMessages (k : ℕ) : Envelope Record where
  key := [107]
  partition := 0
  offset := k % 100
  payload := { value := some [118], headers := [], timestamp := .zero, timestampType := 0 }
  partition_fits := by decide
  offset_fits := ⟨by omega, by omega⟩

set_option maxRecDepth 5000 in
theorem noSilentSuccess_deadLetteredRun :
    ∃ s, (deliveryMachine Record.value franzMeta smallMessages).exec
        (deliveryMachine Record.value franzMeta smallMessages).start deadLetteredRun = some s ∧
      s.completed 7 = true ∧ s.traits 8 = 0x400 ∧
      ((∃ traits, ProcessedOk Record.value franzMeta smallMessages deadLetteredRun 7 traits) ∨
        HandledOk Record.value franzMeta smallMessages deadLetteredRun 7) :=
  ⟨_, rfl, rfl, rfl, (noSilentSuccess rfl).1 7 rfl⟩

end LlingrKafka.Engine
