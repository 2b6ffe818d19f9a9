import LlingrKafka.Builder.TypedFields
import LlingrKafka.Options.Translate

/-!
# Typed builders are structurally valid

What the typed setters add up to is never refused for its keys (`typed_valueLevel`): each
pair is one of the setters' or a security key, the bridge knows all of them, and the
security keys fit each other.
-/

namespace LlingrKafka.Builder

open Checks Security LlingrKafka.Options

/-- The errors of the option stage that are about a value. -/
def ValueLevel (o : Options) : OptionFault → Prop
  | .millis .. | .nonNegativeMillis .. | .int32 .. | .autoOffsetReset _ | .instanceIDEmpty
  | .rackEmpty | .bailAfter _ | .backoff _ => True
  -- an empty preference list
  | .strategyEmpty value => value = ""
  | .security fault => ValueFault o fault
  | _ => False

section

variable {durationMsCeil : ℕ → ℕ} {o : Options}

/-! ## The values of the client setters -/

/-- The strategy a name stands for. -/
def BalanceStrategy.groupBalancer : BalanceStrategy → GroupBalancer
  | cooperativeSticky => .cooperativeSticky
  | sticky => .sticky
  | roundRobin => .roundRobin
  | range => .range

/-- The name of a strategy is read back. -/
theorem balancer_wireName (value : String) (strategy : BalanceStrategy) :
    balancer value (lowerTrim strategy.wireName) = .ok strategy.groupBalancer := by
  cases strategy <;> rfl

theorem mapM_balancer_wireNames (value : String) (strategies : List BalanceStrategy) :
    ((strategies.map fun s => s.wireName.toList).mapM fun raw =>
      balancer value (lowerTrim (String.ofList raw))) =
        .ok (strategies.map BalanceStrategy.groupBalancer) := by
  induction strategies with
  | nil => rfl
  | cons s strategies ih =>
      rw [List.map_cons, List.mapM_cons, String.ofList_toList, balancer_wireName, ih]
      rfl

/-- A preference list is read back in its order. -/
theorem assignmentStrategy_wireNames {strategies : List BalanceStrategy} (hne : strategies ≠ []) :
    assignmentStrategy (",".intercalate (strategies.map BalanceStrategy.wireName)) =
      .ok (some (.balancers (strategies.map BalanceStrategy.groupBalancer))) := by
  have hsplit : (",".intercalate (strategies.map BalanceStrategy.wireName)).toList.splitOn ',' =
      strategies.map fun s => s.wireName.toList := by
    have hcomma : ∀ l ∈ strategies.map fun s => s.wireName.toList, ',' ∉ l := by
      intro l hl
      obtain ⟨s, -, rfl⟩ := List.mem_map.mp hl
      cases s <;> decide
    rw [String.toList_intercalate, List.map_map]
    exact List.splitOn_intercalate ',' hcomma (by simpa using hne)
  rw [assignmentStrategy, hsplit, mapM_balancer_wireNames]
  rfl

/-- A preference list is refused only when it is empty. -/
theorem valueLevel_of_assignmentStrategy {strategies : List BalanceStrategy} {e : OptionFault}
    (h : assignmentStrategy (",".intercalate (strategies.map BalanceStrategy.wireName)) =
      .error e) : ValueLevel o e := by
  rcases eq_or_ne strategies [] with rfl | hne
  · have hempty : assignmentStrategy "" = .error (.strategyEmpty "") := by decide
    have hvalue : ",".intercalate (([] : List BalanceStrategy).map BalanceStrategy.wireName) =
        "" := rfl
    rw [hvalue, hempty] at h
    obtain rfl := Except.error.inj h
    rfl
  · rw [assignmentStrategy_wireNames hne] at h
    cases h

/-- A switch takes the texts its setter writes. -/
theorem not_error_of_switch {key : String} {default : Bool} {opt : ClientOpt}
    {translate : Translator} (hrow : translator key = some translate)
    (hswitch : switch key default opt ∈ franzOptionKeys) (on : Bool) {e : OptionFault} :
    translate (if on then "true" else "false") ≠ .error e := by
  obtain rfl := Option.some_inj.mp (hrow.symm.trans (translator_of_mem hswitch))
  intro h
  have hbool := parsed_eq_error.mp h
  cases on <;> cases hbool

/-- What the table makes of a setter's value is an option, or an error about the value. -/
theorem valueLevel_of_row {setter : ClientSetter} {translate : Translator} {e : OptionFault}
    (hrow : translator setter.key = some translate)
    (h : translate (setter.value durationMsCeil) = .error e) : ValueLevel o e := by
  cases setter
  case autoOffsetReset reset =>
    obtain rfl := Option.some_inj.mp hrow
    simp only [startOffset] at h
    split_ifs at h
    obtain rfl := Except.error.inj h
    trivial
  case clientId id =>
    obtain rfl := Option.some_inj.mp hrow
    cases h
  case groupInstanceId | rack =>
    obtain rfl := Option.some_inj.mp hrow
    simp only [nonBlank] at h
    split_ifs at h
    obtain rfl := Except.error.inj h
    trivial
  case sessionTimeout | heartbeatInterval | rebalanceTimeout | fetchMaxWait | metadataMaxAge |
      dialTimeout | connectionIdleTimeout | retryTimeout =>
    obtain rfl := Option.some_inj.mp hrow
    obtain rfl := millis_of_error (parsed_eq_error.mp h)
    trivial
  case partitionAssignmentStrategy strategies =>
    obtain rfl := Option.some_inj.mp hrow
    exact valueLevel_of_assignmentStrategy h
  case fetchMinBytes | fetchMaxBytes | maxPartitionFetchBytes | requestRetries |
      maxConcurrentFetches =>
    obtain rfl := Option.some_inj.mp hrow
    obtain rfl := int32_of_error (parsed_eq_error.mp h)
    trivial
  case allowAutoTopicCreation =>
    have hswitch : switch "allow.auto.create.topics" false .allowAutoTopicCreation ∈
        franzOptionKeys := by simp [franzOptionKeys]
    exact absurd h (not_error_of_switch hrow hswitch true)
  case disableFetchCrcValidation =>
    have hswitch : switch "check.crcs" true .disableFetchCRCValidation ∈ franzOptionKeys := by
      simp [franzOptionKeys]
    exact absurd h (not_error_of_switch hrow hswitch false)
  case disableClientMetricsPush =>
    have hswitch : switch "enable.metrics.push" true .disableClientMetrics ∈ franzOptionKeys := by
      simp [franzOptionKeys]
    exact absurd h (not_error_of_switch hrow hswitch false)
  -- the keys of the pops have no row
  case clientLogLevel | pollErrorBailAfter | pollErrorLogInterval | pollErrorBackoff => cases hrow

/-- The pops refuse a setter's value only for what it is. -/
theorem valueLevel_of_clientLogLevel {setter : ClientSetter} {e : OptionFault}
    (hkey : setter.key = "llingr.client.log.level")
    (h : clientLogLevel (setter.value durationMsCeil) = .error e) : ValueLevel o e := by
  have hlevel : ∃ level, setter = .clientLogLevel level := by
    cases setter
    case clientLogLevel level => exact ⟨level, rfl⟩
    all_goals exact absurd hkey (by simp [ClientSetter.key])
  obtain ⟨level, rfl⟩ := hlevel
  cases level <;> cases h

theorem valueLevel_of_pollErrorBailAfter {raw : String} {e : OptionFault}
    (h : pollErrorBailAfter raw = .error e) : ValueLevel o e := by
  rcases bind_eq_error.mp h with hparse | ⟨d, -, h⟩
  · obtain rfl := nonNegativeMillis_of_error hparse
    trivial
  rcases reject_bind_eq_error.mp h with ⟨-, rfl⟩ | ⟨-, h⟩
  · trivial
  · cases h

theorem valueLevel_of_pollErrorLogInterval {raw : String} {e : OptionFault}
    (h : pollErrorLogInterval raw = .error e) : ValueLevel o e := by
  obtain rfl := millis_of_error (map_eq_error.mp h)
  trivial

theorem valueLevel_of_pollErrorBackoff {raw : String} {e : OptionFault}
    (h : pollErrorBackoff raw = .error e) : ValueLevel o e := by
  rcases bind_eq_error.mp h with hparse | ⟨d, -, h⟩
  · obtain rfl := nonNegativeMillis_of_error hparse
    trivial
  rcases reject_bind_eq_error.mp h with ⟨-, rfl⟩ | ⟨-, h⟩
  · trivial
  · cases h

/-! ## The keys -/

/-- Without string pairs every pair is a setter's. -/
theorem setter_of_entry {calls : List Call} (htyped : ∀ call ∈ calls, call.Typed)
    {p : String × String} (hp : p ∈ (Options.build durationMsCeil calls).entries) :
    ∃ setter : ClientSetter, p = (setter.key, setter.value durationMsCeil) := by
  rw [Options.entries_build, List.mem_flatMap] at hp
  obtain ⟨call, hcall, hp⟩ := hp
  have hcallTyped := htyped call hcall
  cases call
  case client setter =>
    rw [Call.pairs_client] at hp
    exact ⟨setter, List.mem_singleton.mp hp⟩
  case kafkaOption | kafkaOptions => exact hcallTyped.elim
  all_goals cases hp

/-- The bridge knows the key of every setter, which is neither reserved nor a security key. -/
theorem setter_key (setter : ClientSetter) :
    setter.key ∈ franzOptionKeys.map Prod.fst ++ adapterOptionKeys ∧
      setter.key ∉ reservedOptionKeys.map Prod.fst ∧
      setter.key ∉ franzSecurityCollectors.map Prod.fst := by
  cases setter <;> (simp only [ClientSetter.key]; decide)

/-- The keys of the security setters are security keys. -/
theorem collector_of_securityEntry (h : TypedSecurity o) {key : String}
    (hkey : key ∈ o.securityEntries.map Prod.fst) : (collector key).isSome := by
  have htls : ∀ key ∈ "security.protocol" :: tlsKeys,
      key ∈ franzSecurityCollectors.map Prod.fst := by decide
  have hsasl : ∀ sasl, ∀ key ∈ Options.saslKeys sasl,
      key ∈ franzSecurityCollectors.map Prod.fst := by
    intro sasl
    cases sasl <;> (simp only [Options.saslKeys]; decide)
  refine Assoc.isSome_lookup_iff.mpr ?_
  rcases mem_securityEntries h hkey with htlsKey | ⟨sasl, -, hsaslKey⟩
  · exact htls key htlsKey
  · exact hsasl sasl key (mem_saslKeys hsaslKey).1

end

/-! ## The translation -/

section

variable {durationMsCeil : ℕ → ℕ} {calls : List Call} {m rest : GoMap String String}

/-- The map the pops leave. -/
def LeftByPops (m rest : GoMap String String) : Prop :=
  ∀ key, rest.get? key = if key ∈ adapterOptionKeys then none else m.get? key

variable (htyped : ∀ call ∈ calls, call.Typed)
  (hm : (Options.build durationMsCeil calls).Arrives m)

include htyped hm

/-- What arrives is a setter's pair or a security pair. -/
theorem setter_or_security {p : String × String} (hp : m.get? p.1 = some p.2) :
    (∃ setter : ClientSetter, p = (setter.key, setter.value durationMsCeil)) ∨
      p ∈ (Options.build durationMsCeil calls).securityEntries := by
  rw [hm.get?] at hp
  obtain ⟨before, after, heq, -⟩ := Assoc.last_eq_some_iff.mp hp
  have hmem : p ∈ (Options.build durationMsCeil calls).allEntries := by
    rw [heq]
    exact List.mem_append_right _ List.mem_cons_self
  exact (List.mem_append.mp hmem).imp (setter_of_entry htyped) id

/-- A security key has the value of the typed setters. -/
theorem get?_of_collector {key : String} (hkey : key ∈ franzSecurityCollectors.map Prod.fst) :
    m.get? key = Assoc.last (Options.build durationMsCeil calls).securityEntries key := by
  rw [hm.get?, last_allEntries_of_typed]
  rintro p hp rfl
  obtain ⟨setter, rfl⟩ := setter_of_entry htyped hp
  exact (setter_key setter).2.2 hkey

variable (hrest : LeftByPops m rest)

include hrest

theorem valueLevel_of_refused {p : String × String} {e : OptionFault} (hp : p ∈ rest.sorted)
    (h : Refused p e) : ValueLevel (Options.build durationMsCeil calls) e := by
  have hget := hrest p.1
  rw [GoMap.mem_sorted.mp hp] at hget
  split_ifs at hget with hadapter
  have horigin := setter_or_security htyped hm hget.symm
  have hcollected : p ∈ (Options.build durationMsCeil calls).securityEntries →
      (collector p.1).isSome := fun hmem =>
    collector_of_securityEntry (typedSecurity_build calls) (List.mem_map_of_mem hmem)
  cases h with
  | reserved setter hreserved =>
      have hmem : p.1 ∈ reservedOptionKeys.map Prod.fst :=
        Assoc.isSome_lookup_iff.mp (by rw [hreserved]; rfl)
      rcases horigin with ⟨setter, rfl⟩ | hsecurity
      · exact absurd hmem (setter_key setter).2.1
      · have hdisjoint : ∀ key ∈ reservedOptionKeys.map Prod.fst,
            key ∉ franzSecurityCollectors.map Prod.fst := by decide
        exact absurd (Assoc.isSome_lookup_iff.mp (hcollected hsecurity)) (hdisjoint _ hmem)
  | unsupported hcollector htranslator =>
      rcases horigin with ⟨setter, rfl⟩ | hsecurity
      · have hrow : (translator setter.key).isSome := Assoc.isSome_lookup_iff.mpr
          ((List.mem_append.mp (setter_key setter).1).resolve_right hadapter)
        rw [htranslator] at hrow
        cases hrow
      · have hsome := hcollected hsecurity
        rw [hcollector] at hsome
        cases hsome
  | value htranslator he =>
      rcases horigin with ⟨setter, rfl⟩ | hsecurity
      · exact valueLevel_of_row htranslator he
      · rw [translator_eq_none_of_collector (hcollected hsecurity)] at htranslator
        cases htranslator

theorem valueFault_of_build {Roots Cert : Type} {env : SecurityEnv Roots Cert} {s : FranzSecurity}
    {fault : SecurityFault}
    (hs : FranzSecurity.zero.collectAll (securityPairs rest.sorted) = some s)
    (h : s.build env = .error fault) : ValueFault (Options.build durationMsCeil calls) fault := by
  have hkeys : ∀ key ∈ franzSecurityCollectors.map Prod.fst, key ∉ adapterOptionKeys := by decide
  have hget : ∀ key ∈ franzSecurityCollectors.map Prod.fst, rest.get? key =
      Assoc.last (Options.build durationMsCeil calls).securityEntries key := by
    intro key hkey
    rw [hrest, if_neg (hkeys key hkey), get?_of_collector htyped hm hkey]
  by_cases hactive : (Options.build durationMsCeil calls).securityActive = true
  · have hcollected : Collected (Options.build durationMsCeil calls) s := by
      refine ⟨typedSecurity_build calls, certificatePairs_build calls, hactive, fun f => ?_⟩
      rw [collected_field hs, given_sorted, hget _ (Assoc.isSome_lookup_iff.mp
        (isSome_collector_key f))]
      · rfl
      · intro _
        rw [hget _ (by decide), Assoc.last_eq_none_iff]
        intro hmem
        rcases mem_securityEntries (typedSecurity_build calls) hmem with hother | ⟨sasl, -, hsasl⟩
        · exact absurd hother (by decide)
        · exact (mem_saslKeys hsasl).2 rfl
    exact valueFault_of_raised hcollected (raised_of_build h)
  · -- without a typed security setter no security key arrives
    have hnone : securityPairs rest.sorted = [] := by
      rw [securityPairs, List.filter_eq_nil_iff]
      intro p hp hsome
      have hvalue := hget p.1 (Assoc.isSome_lookup_iff.mp hsome)
      rw [GoMap.mem_sorted.mp hp, Options.securityEntries, if_neg hactive] at hvalue
      cases hvalue
    rw [hnone] at hs
    obtain rfl := Option.some_inj.mp hs
    cases h

end

/-- A builder on which only typed setters were called is refused for a value, never for the
keys its setters wrote: all of them are known, and the security keys fit each other. -/
theorem typed_valueLevel {Roots Cert : Type} (env : SecurityEnv Roots Cert)
    (durationMsCeil : ℕ → ℕ) (calls : List Call) (htyped : ∀ call ∈ calls, call.Typed)
    (m : GoMap String String) (hm : (Options.build durationMsCeil calls).Arrives m)
    (e : OptionFault) (h : franzOptions env m = .error e) :
    ValueLevel (Options.build durationMsCeil calls) e := by
  -- an adapter option came from its own setter: no security setter writes its key
  have hsetter : ∀ {key raw : String}, key ∈ adapterOptionKeys → m.get? key = some raw →
      ∃ setter : ClientSetter, setter.key = key ∧ raw = setter.value durationMsCeil := by
    intro key raw hkey hraw
    have hnot : ∀ key ∈ adapterOptionKeys, key ∉ franzSecurityCollectors.map Prod.fst := by decide
    rcases setter_or_security htyped hm (p := (key, raw)) hraw with ⟨setter, heq⟩ | hsecurity
    · exact ⟨setter, (congrArg Prod.fst heq).symm, congrArg Prod.snd heq⟩
    · exact absurd (Assoc.isSome_lookup_iff.mp (collector_of_securityEntry
        (typedSecurity_build calls) (List.mem_map_of_mem hsecurity))) (hnot key hkey)
  -- the stages of the translation, in their order
  rcases bind_eq_error.mp h with hlevel | ⟨⟨level, m₁⟩, hlevel, h⟩
  · obtain ⟨raw, hraw, hparse⟩ := pop_eq_error hlevel
    obtain ⟨setter, hkey, rfl⟩ := hsetter (by decide) hraw
    exact valueLevel_of_clientLogLevel hkey hparse
  rcases bind_eq_error.mp h with hpolls | ⟨⟨pollErrors, rest⟩, hpolls, h⟩
  · rcases bind_eq_error.mp hpolls with hbail | ⟨bail, -, hpolls⟩
    · obtain ⟨raw, -, hparse⟩ := pop_eq_error hbail
      exact valueLevel_of_pollErrorBailAfter hparse
    rcases bind_eq_error.mp hpolls with hinterval | ⟨interval, -, hpolls⟩
    · obtain ⟨raw, -, hparse⟩ := pop_eq_error hinterval
      exact valueLevel_of_pollErrorLogInterval hparse
    rcases bind_eq_error.mp hpolls with hbackoff | ⟨backoff, -, hpolls⟩
    · obtain ⟨raw, -, hparse⟩ := pop_eq_error hbackoff
      exact valueLevel_of_pollErrorBackoff hparse
    · cases hpolls
  -- what the two pops leave for the table and the security keys
  have hrest : LeftByPops m rest := by
    obtain ⟨-, hm₁⟩ := pop_eq_ok hlevel
    obtain ⟨-, -, -, -, -, -, -, hpolled⟩ := popPollErrorOptions_eq_ok hpolls
    intro key
    have hmem : key ∈ adapterOptionKeys ↔ key = "llingr.client.log.level" ∨ key ∈ pollErrorKeys :=
      List.mem_cons
    simp only [hpolled, hm₁, hmem]
    by_cases hpollKey : key ∈ pollErrorKeys
    · simp only [hpollKey, or_true, if_true]
    · simp only [hpollKey, or_false, if_false]
  rcases bind_eq_error.mp h with hopts | ⟨opts, -, h⟩
  · rcases franzKgoOpts_eq_error hopts with ⟨p, hp, hrefused⟩ | ⟨s, fault, hs, hbuild, rfl⟩
    · exact valueLevel_of_refused htyped hm hrest hp hrefused
    · exact valueFault_of_build htyped hm hrest hs hbuild
  · cases h

/-- A mechanism that was replaced, its refinements, and a password left blank. -/
def blankPasswordCalls : List Call :=
  [.saslAwsMskIam, .awsAssumeRole "arn" (some "session"), .saslScramSha512 "user" "",
    .awsRegion "eu", .client (.partitionAssignmentStrategy [.sticky, .range]), .tlsCaPem "ca"]

theorem typed_valueLevel_blankPassword :
    ∃ e, franzOptions openEnv (Options.build id blankPasswordCalls).arrivalMap = .error e ∧
      ValueLevel (Options.build id blankPasswordCalls) e := by
  have hrefused : (franzOptions openEnv
      (Options.build id blankPasswordCalls).arrivalMap).toOption.isSome = false := by
    decide +kernel
  cases hresult : franzOptions openEnv (Options.build id blankPasswordCalls).arrivalMap with
  | ok r =>
      rw [hresult] at hrefused
      cases hrefused
  | error e =>
      refine ⟨e, rfl, typed_valueLevel openEnv id blankPasswordCalls ?_ _
        (Options.arrives_arrivalMap _) e hresult⟩
      simp [blankPasswordCalls, Call.Typed]

end LlingrKafka.Builder
