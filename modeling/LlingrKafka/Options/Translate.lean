import LlingrKafka.Options.Table
import LlingrKafka.Security.Build
import LlingrKafka.Security.Fields
import Mathlib.Data.List.ReduceOption

/-!
# Translating the option pairs

The stages of `buildFranzConsumer` (`bridge/adapter_franz.go`) that turn the option map into
client options: the two pops of adapter options, and `franzKgoOpts` over what they leave.

Each has one lemma that says what it does to the map and what it returns
(`pop_eq_ok`, `foldlM_translateKey_eq_ok`, `franzOptions_eq_ok`), and one that says that it
does not see the order of the map.
-/

namespace LlingrKafka.Options

open Checks Security

/-- `kgo.Opt`. -/
inductive KgoOpt (Roots Cert : Type)
  | client (opt : ClientOpt)
  | security (opt : SecurityOpt Roots Cert)

/-- `kgo.LogLevel`. -/
inductive LogLevel
  | none
  | error
  | warn
  | info
  | debug
  deriving DecidableEq, Repr

/-- `franzadapter.AdapterOption`, as far as the poll-error options need it. -/
inductive AdapterOption
  | pollErrorBailAfter (d : ℤ)
  | pollErrorLogInterval (d : ℤ)
  | pollErrorBackoff (d : ℤ)
  deriving DecidableEq, Repr

/-! ## The adapter options -/

/-- Take a key out of the map and parse its value. -/
def pop {α : Type} (m : GoMap String String) (key : String)
    (parse : String → Except OptionFault α) : Except OptionFault (Option α × GoMap String String) :=
  match m.get? key with
  | none => .ok (none, m)
  | some raw => (parse raw).map fun a => (some a, m.erase key)

def clientLogLevel (raw : String) : Except OptionFault LogLevel :=
  if raw = "none" then .ok .none
  else if raw = "error" then .ok .error
  else if raw = "warn" then .ok .warn
  else if raw = "info" then .ok .info
  else if raw = "debug" then .ok .debug
  else .error (.clientLogLevel raw)

/-- `popClientLogLevel`. -/
def popClientLogLevel (m : GoMap String String) :
    Except OptionFault (Option LogLevel × GoMap String String) :=
  pop m "llingr.client.log.level" clientLogLevel

def pollErrorBailAfter (raw : String) : Except OptionFault AdapterOption := do
  let d ← nonNegativeMillisOption "llingr.poll.error.bail.after.ms" raw
  reject (d ≠ 0 ∧ (d < minPollErrorBailAfter ∨ d > maxPollErrorBailAfter)) (.bailAfter d)
  .ok (.pollErrorBailAfter d)

def pollErrorLogInterval (raw : String) : Except OptionFault AdapterOption :=
  (millisOption "llingr.poll.error.log.interval.ms" raw).map .pollErrorLogInterval

def pollErrorBackoff (raw : String) : Except OptionFault AdapterOption := do
  let d ← nonNegativeMillisOption "llingr.poll.error.backoff.ms" raw
  reject (d > maxPollErrorBackoff) (.backoff d)
  .ok (.pollErrorBackoff d)

/-- The keys of `popPollErrorOptions`. -/
def pollErrorKeys : List String :=
  ["llingr.poll.error.bail.after.ms", "llingr.poll.error.log.interval.ms",
    "llingr.poll.error.backoff.ms"]

/-- `popPollErrorOptions`. -/
def popPollErrorOptions (m : GoMap String String) :
    Except OptionFault (List AdapterOption × GoMap String String) := do
  let bail ← pop m "llingr.poll.error.bail.after.ms" pollErrorBailAfter
  let interval ← pop bail.2 "llingr.poll.error.log.interval.ms" pollErrorLogInterval
  let backoff ← pop interval.2 "llingr.poll.error.backoff.ms" pollErrorBackoff
  .ok (bail.1.toList ++ interval.1.toList ++ backoff.1.toList, backoff.2)

/-! ## The client options -/

/-- `reservedOptionKeys`. -/
def reservedOptionKeys : List (String × String) :=
  [("bootstrap.servers", "brokers()"), ("group.id", "consumer_group()")]

/-- `adapterOptionKeys`. -/
def adapterOptionKeys : List String :=
  ["llingr.client.log.level", "llingr.poll.error.bail.after.ms",
    "llingr.poll.error.log.interval.ms", "llingr.poll.error.backoff.ms"]

/-- `supportedFranzKeys`. -/
def supportedFranzKeys : List String :=
  (franzOptionKeys.map Prod.fst ++ franzSecurityCollectors.map Prod.fst ++
    adapterOptionKeys).insertionSort (· ≤ ·)

/-- One key of the loop in `franzKgoOpts`. -/
def translateKey (st : FranzSecurity × List ClientOpt) (entry : String × String) :
    Except OptionFault (FranzSecurity × List ClientOpt) :=
  match reservedOptionKeys.lookup entry.1 with
  | some setter => .error (.reserved entry.1 setter)
  | none =>
      match st.1.collect entry.1 entry.2 with
      | some security => .ok (security, st.2)
      | none =>
          match translator entry.1 with
          | none => .error (.unsupported entry.1 supportedFranzKeys)
          | some translate => (translate entry.2).map fun opt => (st.1, st.2 ++ opt.toList)

section

variable {Roots Cert : Type} (env : SecurityEnv Roots Cert)

/-- `franzKgoOpts`. -/
def franzKgoOpts (m : GoMap String String) : Except OptionFault (List (KgoOpt Roots Cert)) :=
  if m.entries.isEmpty then .ok []
  else do
    let st ← m.sorted.foldlM translateKey (FranzSecurity.zero, [])
    let securityOpts ← (st.1.build env).mapError .security
    .ok (st.2.map .client ++ securityOpts.map .security)

/-- What the option map is translated to. -/
structure FranzOptions (Roots Cert : Type) where
  clientLogLevel : Option LogLevel
  pollErrorOpts : List AdapterOption
  opts : List (KgoOpt Roots Cert)

/-- The pops and the translation, as `buildFranzConsumer` runs them. -/
def franzOptions (m : GoMap String String) : Except OptionFault (FranzOptions Roots Cert) := do
  let level ← popClientLogLevel m
  let pollErrors ← popPollErrorOptions level.2
  let opts ← franzKgoOpts env pollErrors.2
  .ok ⟨level.1, pollErrors.1, opts⟩

end

/-! ## What the stages do -/

/-- The two maps are the same. -/
def SameMap (m m' : GoMap String String) : Prop := ∀ key, m.get? key = m'.get? key

/-- The same error, or the same value and the same map. -/
def SameResult {β : Type} : Except OptionFault (β × GoMap String String) →
    Except OptionFault (β × GoMap String String) → Prop
  | .error e, .error e' => e = e'
  | .ok r, .ok r' => r.1 = r'.1 ∧ SameMap r.2 r'.2
  | _, _ => False

section

variable {β γ : Type} {x x' : Except OptionFault (β × GoMap String String)}

theorem SameResult.bind {f : β × GoMap String String → Except OptionFault (γ × GoMap String String)}
    (h : SameResult x x')
    (hf : ∀ b m m', SameMap m m' → SameResult (f (b, m)) (f (b, m'))) :
    SameResult (x >>= f) (x' >>= f) := by
  cases x with
  | error e =>
      cases x' with
      | error e' => exact h
      | ok r' => exact h.elim
  | ok r =>
      cases x' with
      | error e' => exact h.elim
      | ok r' =>
          obtain ⟨b, m⟩ := r
          obtain ⟨b', m'⟩ := r'
          obtain ⟨rfl, hsame⟩ := h
          exact hf b m m' hsame

theorem SameResult.bind_eq {f : β × GoMap String String → Except OptionFault γ}
    (h : SameResult x x') (hf : ∀ b m m', SameMap m m' → f (b, m) = f (b, m')) :
    x >>= f = x' >>= f := by
  cases x with
  | error e =>
      cases x' with
      | error e' => exact congrArg Except.error h
      | ok r' => exact h.elim
  | ok r =>
      cases x' with
      | error e' => exact h.elim
      | ok r' =>
          obtain ⟨b, m⟩ := r
          obtain ⟨b', m'⟩ := r'
          obtain ⟨rfl, hsame⟩ := h
          exact hf b m m' hsame

end

section

variable {α : Type} {m m' : GoMap String String} {key : String}
  {parse : String → Except OptionFault α}

/-- A pop returns what the value parses to, and only its key is gone. -/
theorem pop_eq_ok {o : Option α} {rest : GoMap String String}
    (h : pop m key parse = .ok (o, rest)) :
    (m.get? key).map parse = o.map .ok ∧
      ∀ k, rest.get? k = if k = key then none else m.get? k := by
  unfold pop at h
  cases hget : m.get? key with
  | none =>
      rw [hget] at h
      obtain ⟨rfl, rfl⟩ := Prod.mk.inj (Except.ok.inj h)
      refine ⟨rfl, fun k => ?_⟩
      by_cases hk : k = key
      · rw [if_pos hk, hk, hget]
      · rw [if_neg hk]
  | some raw =>
      rw [hget] at h
      obtain ⟨a, hparse, ha⟩ := map_eq_ok.mp h
      obtain ⟨rfl, rfl⟩ := Prod.mk.inj ha
      exact ⟨congrArg some hparse, m.get?_erase key⟩

theorem pop_eq_error {e : OptionFault} (h : pop m key parse = .error e) :
    ∃ raw, m.get? key = some raw ∧ parse raw = .error e := by
  unfold pop at h
  cases hget : m.get? key with
  | none =>
      rw [hget] at h
      cases h
  | some raw =>
      rw [hget] at h
      exact ⟨raw, rfl, map_eq_error.mp h⟩

/-- A pop does not see the order of the map. -/
theorem pop_same (h : SameMap m m') : SameResult (pop m key parse) (pop m' key parse) := by
  have hkey := h key
  unfold pop
  cases hget : m'.get? key with
  | none =>
      rw [hkey, hget]
      exact ⟨rfl, h⟩
  | some raw =>
      rw [hkey, hget]
      show SameResult ((parse raw).map _) ((parse raw).map _)
      cases parse raw with
      | error e => exact rfl
      | ok a =>
          refine ⟨rfl, fun k => ?_⟩
          rw [GoMap.get?_erase, GoMap.get?_erase, h k]

end

/-- The three poll-error pops. -/
theorem popPollErrorOptions_eq_ok {m rest : GoMap String String} {opts : List AdapterOption}
    (h : popPollErrorOptions m = .ok (opts, rest)) :
    ∃ bail interval backoff : Option AdapterOption,
      (m.get? "llingr.poll.error.bail.after.ms").map pollErrorBailAfter = bail.map .ok ∧
      (m.get? "llingr.poll.error.log.interval.ms").map pollErrorLogInterval =
        interval.map .ok ∧
      (m.get? "llingr.poll.error.backoff.ms").map pollErrorBackoff = backoff.map .ok ∧
      opts = bail.toList ++ interval.toList ++ backoff.toList ∧
      ∀ k, rest.get? k = if k ∈ pollErrorKeys then none else m.get? k := by
  obtain ⟨⟨bail, m₁⟩, hbail, h⟩ := bind_eq_ok.mp h
  obtain ⟨⟨interval, m₂⟩, hinterval, h⟩ := bind_eq_ok.mp h
  obtain ⟨⟨backoff, m₃⟩, hbackoff, h⟩ := bind_eq_ok.mp h
  obtain ⟨rfl, rfl⟩ := Prod.mk.inj (Except.ok.inj h)
  obtain ⟨hbailValue, hm₁⟩ := pop_eq_ok hbail
  obtain ⟨hintervalValue, hm₂⟩ := pop_eq_ok hinterval
  obtain ⟨hbackoffValue, hm₃⟩ := pop_eq_ok hbackoff
  simp only at hm₁ hm₂ hm₃ hintervalValue hbackoffValue
  rw [hm₁, if_neg (by decide)] at hintervalValue
  rw [hm₂, if_neg (by decide), hm₁, if_neg (by decide)] at hbackoffValue
  refine ⟨bail, interval, backoff, hbailValue, hintervalValue, hbackoffValue, rfl, fun k => ?_⟩
  rw [hm₃, hm₂, hm₁]
  by_cases hbackoffKey : k = "llingr.poll.error.backoff.ms"
  · simp [pollErrorKeys, hbackoffKey]
  · by_cases hintervalKey : k = "llingr.poll.error.log.interval.ms"
    · simp [pollErrorKeys, hintervalKey]
    · by_cases hbailKey : k = "llingr.poll.error.bail.after.ms" <;>
        simp [pollErrorKeys, hbackoffKey, hintervalKey, hbailKey]

theorem popPollErrorOptions_same {m m' : GoMap String String} (h : SameMap m m') :
    SameResult (popPollErrorOptions m) (popPollErrorOptions m') := by
  refine (pop_same h).bind fun bail m₁ m₁' h₁ => ?_
  refine (pop_same h₁).bind fun interval m₂ m₂' h₂ => ?_
  refine (pop_same h₂).bind fun backoff m₃ m₃' h₃ => ?_
  exact ⟨rfl, h₃⟩

/-! ## The loop -/

/-- The pairs of the option table. -/
def tablePairs (entries : List (String × String)) : List (String × String) :=
  entries.filter fun p => (translator p.1).isSome

/-- What a row makes of a pair. -/
def Translates (p : String × String) (opt : Option ClientOpt) : Prop :=
  ∃ translate, translator p.1 = some translate ∧ translate p.2 = .ok opt

/-- Why the loop refuses a pair. -/
inductive Refused (p : String × String) : OptionFault → Prop
  | reserved (setter : String) (h : reservedOptionKeys.lookup p.1 = some setter) :
      Refused p (.reserved p.1 setter)
  | unsupported (hcollector : collector p.1 = none) (htranslator : translator p.1 = none) :
      Refused p (.unsupported p.1 supportedFranzKeys)
  | value {translate : Translator} {e : OptionFault} (h : translator p.1 = some translate)
      (he : translate p.2 = .error e) : Refused p e

theorem Refused.code_eq {p : String × String} {e : OptionFault} (h : Refused p e) :
    e.code = .badOption := by
  cases h with
  | reserved | unsupported => rfl
  | value htranslator he => exact (rowSpec_of_translator htranslator).fault he

/-- No key is a row of two tables. -/
theorem translator_eq_none_of_collector {key : String} (h : (collector key).isSome) :
    translator key = none := by
  have hdisjoint : ∀ key ∈ franzSecurityCollectors.map Prod.fst,
      key ∉ franzOptionKeys.map Prod.fst := by decide
  rw [← Option.not_isSome_iff_eq_none, translator, Assoc.isSome_lookup_iff]
  exact hdisjoint key (Assoc.isSome_lookup_iff.mp h)

section

variable {st st' : FranzSecurity × List ClientOpt} {p : String × String}
  {entries : List (String × String)}

/-- A key is collected, or its row's option is appended. -/
theorem translateKey_eq_ok (h : translateKey st p = .ok st') :
    reservedOptionKeys.lookup p.1 = none ∧
      (((collector p.1).isSome ∧ st.1.collect p.1 p.2 = some st'.1 ∧ st'.2 = st.2) ∨
        (collector p.1 = none ∧ st'.1 = st.1 ∧
          ∃ opt, Translates p opt ∧ st'.2 = st.2 ++ opt.toList)) := by
  unfold translateKey at h
  cases hreserved : reservedOptionKeys.lookup p.1 with
  | some setter =>
      rw [hreserved] at h
      cases h
  | none =>
      refine ⟨rfl, ?_⟩
      rw [hreserved] at h
      cases hcollect : collector p.1 with
      | some c =>
          have hstep : st.1.collect p.1 p.2 =
              some ⟨Function.update st.1.field c.1 (c.2 p.2), true⟩ := by
            rw [FranzSecurity.collect, hcollect]
            rfl
          simp only [hstep] at h
          obtain rfl := Except.ok.inj h
          exact .inl ⟨rfl, hstep, rfl⟩
      | none =>
          have hstep : st.1.collect p.1 p.2 = none := by
            rw [FranzSecurity.collect, hcollect]
            rfl
          simp only [hstep] at h
          cases htranslate : translator p.1 with
          | none =>
              rw [htranslate] at h
              cases h
          | some translate =>
              rw [htranslate] at h
              obtain ⟨opt, hopt, rfl⟩ := map_eq_ok.mp h
              exact .inr ⟨rfl, rfl, opt, ⟨translate, htranslate, hopt⟩, rfl⟩

/-- A key is refused when it is reserved or unknown, or has a value its row refuses. -/
theorem translateKey_eq_error {e : OptionFault} (h : translateKey st p = .error e) :
    Refused p e := by
  unfold translateKey at h
  split at h
  · rename_i setter hreserved
    obtain rfl := Except.error.inj h
    exact .reserved setter hreserved
  · split at h
    · cases h
    · rename_i hcollect
      have hcollector : collector p.1 = none := Option.map_eq_none_iff.mp hcollect
      split at h
      · rename_i htranslate
        obtain rfl := Except.error.inj h
        exact .unsupported hcollector htranslate
      · rename_i translate htranslate
        exact .value htranslate (map_eq_error.mp h)

theorem foldlM_translateKey_eq_error {e : OptionFault}
    (h : entries.foldlM translateKey st = .error e) : ∃ p ∈ entries, Refused p e := by
  induction entries generalizing st with
  | nil => cases h
  | cons p entries ih =>
      rw [List.foldlM_cons] at h
      rcases bind_eq_error.mp h with hp | ⟨mid, -, hrest⟩
      · exact ⟨p, List.mem_cons_self, translateKey_eq_error hp⟩
      · obtain ⟨q, hq, hrefused⟩ := ih hrest
        exact ⟨q, List.mem_cons_of_mem _ hq, hrefused⟩

/-- The loop accepts pairs when each belongs to the collectors or translates; the options
come in the order of the pairs. -/
theorem foldlM_translateKey_eq_ok (h : entries.foldlM translateKey st = .ok st') :
    (∀ p ∈ entries, reservedOptionKeys.lookup p.1 = none ∧
      ((collector p.1).isSome ∨ (translator p.1).isSome)) ∧
    st.1.collectAll (securityPairs entries) = some st'.1 ∧
    ∃ opts : List (Option ClientOpt), List.Forall₂ Translates (tablePairs entries) opts ∧
      st'.2 = st.2 ++ opts.reduceOption := by
  induction entries generalizing st with
  | nil =>
      obtain rfl := Except.ok.inj h
      exact ⟨by simp, rfl, [], .nil, by simp⟩
  | cons p entries ih =>
      rw [List.foldlM_cons] at h
      obtain ⟨mid, hmid, hrest⟩ := bind_eq_ok.mp h
      obtain ⟨hkeys, hcollect, opts, hopts, hst⟩ := ih hrest
      obtain ⟨hreserved, ⟨hsome, hstep, hmidOpts⟩ | ⟨hnone, hmidSecurity, opt, htrans, hmidOpts⟩⟩ :=
        translateKey_eq_ok hmid
      · have htable : (translator p.1).isSome = false := by
          rw [translator_eq_none_of_collector hsome]
          rfl
        refine ⟨List.forall_mem_cons.mpr ⟨⟨hreserved, .inl hsome⟩, hkeys⟩, ?_, opts, ?_, ?_⟩
        · rw [securityPairs, List.filter_cons, if_pos hsome, FranzSecurity.collectAll,
            List.foldlM_cons, hstep]
          exact hcollect
        · rw [tablePairs, List.filter_cons, if_neg (by simp [htable])]
          exact hopts
        · rw [hst, hmidOpts]
      · have hrow : (translator p.1).isSome := by
          obtain ⟨translate, hlookup, -⟩ := htrans
          rw [hlookup]
          rfl
        refine ⟨List.forall_mem_cons.mpr ⟨⟨hreserved, .inr hrow⟩, hkeys⟩, ?_, opt :: opts, ?_, ?_⟩
        · rw [securityPairs, List.filter_cons, if_neg (by simp [hnone]), ← hmidSecurity]
          exact hcollect
        · rw [tablePairs, List.filter_cons, if_pos hrow]
          exact .cons htrans hopts
        · rw [hst, hmidOpts, List.append_assoc]
          cases opt with
          | none => rfl
          | some o => rfl

end

/-! ## The whole translation -/

section

variable {Roots Cert : Type} {env : SecurityEnv Roots Cert} {m m' : GoMap String String}

theorem franzKgoOpts_same (h : SameMap m m') : franzKgoOpts env m = franzKgoOpts env m' := by
  have hsorted : m.sorted = m'.sorted := GoMap.sorted_congr h
  have hempty : m.entries.isEmpty = m'.entries.isEmpty := by
    rw [Bool.eq_iff_iff, List.isEmpty_iff, List.isEmpty_iff, ← GoMap.sorted_eq_nil_iff, hsorted,
      GoMap.sorted_eq_nil_iff]
  rw [franzKgoOpts, franzKgoOpts, hempty, hsorted]

/-- Neither the options nor the error depend on the order of the map. -/
theorem franzOptions_same (h : SameMap m m') : franzOptions env m = franzOptions env m' := by
  refine (pop_same h).bind_eq fun level m₁ m₁' h₁ => ?_
  refine (popPollErrorOptions_same h₁).bind_eq fun pollErrors m₂ m₂' h₂ => ?_
  show (franzKgoOpts env m₂).bind _ = (franzKgoOpts env m₂').bind _
  rw [franzKgoOpts_same h₂]

/-- The security keys are built from as one unit; every other key is a row of the table. -/
theorem franzKgoOpts_eq_ok {opts : List (KgoOpt Roots Cert)} (h : franzKgoOpts env m = .ok opts) :
    (∀ p ∈ m.sorted, reservedOptionKeys.lookup p.1 = none ∧
      ((collector p.1).isSome ∨ (translator p.1).isSome)) ∧
    ∃ (s : FranzSecurity) (securityOpts : List (SecurityOpt Roots Cert))
      (tableOpts : List (Option ClientOpt)),
      FranzSecurity.zero.collectAll (securityPairs m.sorted) = some s ∧
      s.build env = .ok securityOpts ∧
      List.Forall₂ Translates (tablePairs m.sorted) tableOpts ∧
      opts = tableOpts.reduceOption.map .client ++ securityOpts.map .security := by
  unfold franzKgoOpts at h
  split_ifs at h with hempty
  · have hsorted : m.sorted = [] := GoMap.sorted_eq_nil_iff.mpr (List.isEmpty_iff.mp hempty)
    rw [hsorted, ← Except.ok.inj h]
    exact ⟨by simp, .zero, [], [], rfl, rfl, .nil, rfl⟩
  · obtain ⟨st, hloop, h⟩ := bind_eq_ok.mp h
    obtain ⟨securityOpts, hbuild, h⟩ := bind_eq_ok.mp h
    obtain rfl := Except.ok.inj h
    obtain ⟨hkeys, hcollect, tableOpts, htable, hopts⟩ := foldlM_translateKey_eq_ok hloop
    rw [List.nil_append] at hopts
    exact ⟨hkeys, st.1, securityOpts, tableOpts, hcollect, mapError_eq_ok.mp hbuild, htable,
      by rw [hopts]⟩

theorem franzKgoOpts_eq_error {e : OptionFault} (h : franzKgoOpts env m = .error e) :
    (∃ p ∈ m.sorted, Refused p e) ∨
      ∃ (s : FranzSecurity) (fault : SecurityFault),
        FranzSecurity.zero.collectAll (securityPairs m.sorted) = some s ∧
        s.build env = .error fault ∧ e = .security fault := by
  unfold franzKgoOpts at h
  split_ifs at h
  rcases bind_eq_error.mp h with hloop | ⟨st, hloop, h⟩
  · exact .inl (foldlM_translateKey_eq_error hloop)
  · rcases bind_eq_error.mp h with hbuild | ⟨securityOpts, -, h⟩
    · obtain ⟨fault, hfault, rfl⟩ := mapError_eq_error.mp hbuild
      exact .inr ⟨st.1, fault, (foldlM_translateKey_eq_ok hloop).2.1, hfault, rfl⟩
    · cases h

end

end LlingrKafka.Options
