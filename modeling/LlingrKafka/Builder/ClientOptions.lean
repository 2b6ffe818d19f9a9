import LlingrKafka.Builder.Structure
import LlingrKafka.Options.Millis
import LlingrKafka.Options.Settings

/-!
# Client options are applied as written

A builder that has client setters only, and what the bridge makes of it
(`clientOptions_applied`): it is refused exactly when the last value of some key is one the
setter documents as invalid, and otherwise every key that was set is applied once, as the
last call's argument.

One setter is followed from its text to its setting in `parsePair_setter`; that the last
setter of each key is what arrives is `sorted_perm`.
-/

namespace LlingrKafka.Builder

open Checks FixedWidth Security LlingrKafka.Options

/-- A duration rounded up to whole milliseconds. -/
def wholeMillis (d : ℕ) : ℕ := (d + 999999) / 1000000

/-- The duration a setter is given. -/
def ClientSetter.duration? : ClientSetter → Option ℕ
  | sessionTimeout d | heartbeatInterval d | rebalanceTimeout d | fetchMaxWait d
  | metadataMaxAge d | dialTimeout d | connectionIdleTimeout d | retryTimeout d
  | pollErrorBailAfter d | pollErrorLogInterval d | pollErrorBackoff d => some d
  | _ => none

/-- The whole milliseconds fit in 64 bits of nanoseconds. -/
def ClientSetter.Fits (setter : ClientSetter) : Prop :=
  ∀ d ∈ setter.duration?, wholeMillis d * 1000000 < 2 ^ 63

/-- The start of consumption is one of the two the type has. -/
def ClientSetter.ResetNamed : ClientSetter → Prop
  | autoOffsetReset reset => reset = "earliest" ∨ reset = "latest"
  | _ => True

/-- The values a setter documents as invalid, as its key holds them. -/
def ClientSetter.Invalid : ClientSetter → Prop
  -- a zero duration where a positive one is required
  | sessionTimeout d | heartbeatInterval d | rebalanceTimeout d | fetchMaxWait d
  | metadataMaxAge d | dialTimeout d | connectionIdleTimeout d | retryTimeout d
  | pollErrorLogInterval d => d = 0
  -- a count that is 0 or above 2³¹ - 1
  | fetchMinBytes n | fetchMaxBytes n | maxPartitionFetchBytes n | requestRetries n
  | maxConcurrentFetches n => n.toNat = 0 ∨ 2 ^ 31 - 1 < n.toNat
  | groupInstanceId s | rack s => Text.trimSpace s = ""
  | partitionAssignmentStrategy strategies => strategies = []
  -- outside of one minute to one hour, and not switched off
  | pollErrorBailAfter d => wholeMillis d ≠ 0 ∧ (wholeMillis d < 60000 ∨ 3600000 < wholeMillis d)
  -- beyond five seconds
  | pollErrorBackoff d => 5000 < wholeMillis d
  | autoOffsetReset _ | clientId _ | clientLogLevel _ | allowAutoTopicCreation
  | disableFetchCrcValidation | disableClientMetricsPush => False

def ClientLogLevel.logLevel : ClientLogLevel → LogLevel
  | none => .none
  | error => .error
  | warn => .warn
  | info => .info
  | debug => .debug

/-- The setting a setter asks for. -/
def ClientSetter.setting : ClientSetter → Setting
  | autoOffsetReset reset =>
      .client (.consumeStartOffset (if reset = "earliest" then .atStart else .atEnd))
  | clientId id => .client (.clientID id)
  | groupInstanceId id => .client (.instanceID id)
  | sessionTimeout d => .client (.sessionTimeout (wholeMillis d * 1000000 : ℕ))
  | heartbeatInterval d => .client (.heartbeatInterval (wholeMillis d * 1000000 : ℕ))
  | rebalanceTimeout d => .client (.rebalanceTimeout (wholeMillis d * 1000000 : ℕ))
  | clientLogLevel level => .logLevel level.logLevel
  | partitionAssignmentStrategy strategies =>
      .client (.balancers (strategies.map BalanceStrategy.groupBalancer))
  | fetchMinBytes n => .client (.fetchMinBytes n.toNat)
  | fetchMaxBytes n => .client (.fetchMaxBytes n.toNat)
  | maxPartitionFetchBytes n => .client (.fetchMaxPartitionBytes n.toNat)
  | fetchMaxWait d => .client (.fetchMaxWait (wholeMillis d * 1000000 : ℕ))
  | rack name => .client (.rack name)
  | metadataMaxAge d => .client (.metadataMaxAge (wholeMillis d * 1000000 : ℕ))
  | dialTimeout d => .client (.dialTimeout (wholeMillis d * 1000000 : ℕ))
  | connectionIdleTimeout d => .client (.connIdleTimeout (wholeMillis d * 1000000 : ℕ))
  | requestRetries n => .client (.requestRetries n.toNat)
  | retryTimeout d => .client (.retryTimeout (wholeMillis d * 1000000 : ℕ))
  | maxConcurrentFetches n => .client (.maxConcurrentFetches n.toNat)
  | allowAutoTopicCreation => .client .allowAutoTopicCreation
  | disableFetchCrcValidation => .client .disableFetchCRCValidation
  | disableClientMetricsPush => .client .disableClientMetrics
  | pollErrorBailAfter d => .pollError (.pollErrorBailAfter (wholeMillis d * 1000000 : ℕ))
  | pollErrorLogInterval d => .pollError (.pollErrorLogInterval (wholeMillis d * 1000000 : ℕ))
  | pollErrorBackoff d => .pollError (.pollErrorBackoff (wholeMillis d * 1000000 : ℕ))

/-- The last setter of each key, in order. -/
def lastSetters (setters : List ClientSetter) : List ClientSetter :=
  setters.pwFilter fun s s' => s.key ≠ s'.key

/-- A setter is kept when no later one has its key. -/
theorem mem_lastSetters {setters : List ClientSetter} {s : ClientSetter} :
    s ∈ lastSetters setters ↔
      ∃ before after, setters = before ++ s :: after ∧ ∀ s' ∈ after, s.key ≠ s'.key := by
  induction setters with
  | nil => simp [lastSetters]
  | cons s₀ setters ih =>
      have hkept : (∀ s' ∈ lastSetters setters, s₀.key ≠ s'.key) ↔
          ∀ s' ∈ setters, s₀.key ≠ s'.key := by
        refine List.forall_mem_pwFilter (fun {x y z} hne => ?_) s₀ setters
        by_cases hxy : x.key = y.key
        · exact .inr (hxy ▸ hne)
        · exact .inl hxy
      have hmem : s ∈ lastSetters (s₀ :: setters) ↔
          (s = s₀ ∧ ∀ s' ∈ setters, s₀.key ≠ s'.key) ∨ s ∈ lastSetters setters := by
        by_cases hlater : ∀ s' ∈ lastSetters setters, s₀.key ≠ s'.key
        · rw [lastSetters, List.pwFilter_cons_of_pos hlater, List.mem_cons, ← lastSetters,
            and_iff_left (hkept.mp hlater)]
        · rw [lastSetters, List.pwFilter_cons_of_neg hlater, ← lastSetters]
          rw [hkept] at hlater
          simp [hlater]
      rw [hmem, ih]
      constructor
      · rintro (⟨rfl, hlater⟩ | ⟨before, after, rfl, hlater⟩)
        · exact ⟨[], setters, rfl, hlater⟩
        · exact ⟨s₀ :: before, after, rfl, hlater⟩
      · rintro ⟨before, after, heq, hlater⟩
        cases before with
        | nil =>
            obtain ⟨rfl, rfl⟩ := List.cons.inj heq
            exact .inl ⟨rfl, hlater⟩
        | cons s₁ before =>
            obtain ⟨rfl, rfl⟩ := List.cons.inj heq
            exact .inr ⟨before, after, rfl, hlater⟩

/-! ## The values -/

section

variable {key : String}

/-- A duration is read back unless it is zero. -/
theorem millisOption_toString {ms : ℕ} (hfits : ms * 1000000 < 2 ^ 63) :
    millisOption key (toString ms) =
      if ms = 0 then .error (.millis key (toString ms)) else .ok ((ms * 1000000 : ℕ) : ℤ) := by
  have hexact : milliseconds ms = ((ms * 1000000 : ℕ) : ℤ) := by
    rw [(milliseconds_eq_iff (Int.natCast_nonneg ms)).mpr (by rw [maxMillis]; omega)]
    push_cast
    rfl
  rw [millisOption, Text.atoi_toString (by omega)]
  simp only [hexact]
  split_ifs with hle hzero hzero
  · rfl
  · exact absurd hle (by omega)
  · exact absurd hzero (by omega)
  · rfl

/-- A duration that may be zero is read back. -/
theorem nonNegativeMillisOption_toString {ms : ℕ} (hfits : ms * 1000000 < 2 ^ 63) :
    nonNegativeMillisOption key (toString ms) = .ok ((ms * 1000000 : ℕ) : ℤ) := by
  have hexact : milliseconds ms = ((ms * 1000000 : ℕ) : ℤ) := by
    rw [(milliseconds_eq_iff (Int.natCast_nonneg ms)).mpr (by rw [maxMillis]; omega)]
    push_cast
    rfl
  rw [nonNegativeMillisOption, Text.atoi_toString (by omega)]
  simp only [hexact]
  rw [if_neg (by omega)]

/-- A count is read back when it is a positive 32-bit integer. -/
theorem int32Option_toString (n : ℕ) :
    int32Option key (toString n) =
      if n = 0 ∨ 2 ^ 31 - 1 < n then .error (.int32 key (toString n)) else .ok (n : ℤ) := by
  rw [int32Option, Text.parseInt_toString]
  by_cases hrange : n < 2 ^ (32 - 1)
  · rw [if_pos hrange]
    simp only
    split_ifs <;> first | rfl | omega
  · rw [if_neg hrange, if_pos (by omega)]

end

/-! ## From a setter to its setting -/

/-- The pair of a setter. -/
def ClientSetter.pair (durationMsCeil : ℕ → ℕ) (setter : ClientSetter) : String × String :=
  (setter.key, setter.value durationMsCeil)

/-- A pair that parses to a setting, unless it is invalid. -/
def ParsesTo (p : String × String) (invalid : Prop) (setting : Setting) : Prop :=
  (invalid → ∃ e, parsePair p = .error e) ∧ (¬ invalid → parsePair p = .ok (some setting))

theorem wholeMillis_eq_zero_iff {d : ℕ} : wholeMillis d = 0 ↔ d = 0 := by
  unfold wholeMillis
  omega

section

variable {durationMsCeil : ℕ → ℕ}
  (hceil : ∀ d, wholeMillis d * 1000000 < 2 ^ 63 → durationMsCeil d = wholeMillis d)

include hceil

/-- A duration of the client. -/
theorem parsesTo_duration {key : String} {opt : ℤ → ClientOpt}
    (hrow : translator key = some (parsed millisOption key fun d => some (opt d)).2) {d : ℕ}
    (hfits : wholeMillis d * 1000000 < 2 ^ 63) :
    ParsesTo (key, toString (durationMsCeil d)) (d = 0)
      (.client (opt (wholeMillis d * 1000000 : ℕ))) := by
  have hparse := @millisOption_toString key (wholeMillis d) hfits
  rw [ParsesTo, parsePair_of_translator hrow, hceil d hfits]
  simp only [parsed, hparse, wholeMillis_eq_zero_iff]
  constructor
  · rintro rfl
    exact ⟨_, rfl⟩
  · intro hd
    rw [if_neg hd]
    rfl

omit hceil in
/-- A count. -/
theorem parsesTo_count {key : String} {opt : ℤ → ClientOpt}
    (hrow : translator key = some (parsed int32Option key fun n => some (opt n)).2) (n : UInt32) :
    ParsesTo (key, toString n.toNat) (n.toNat = 0 ∨ 2 ^ 31 - 1 < n.toNat)
      (.client (opt n.toNat)) := by
  have hparse := @int32Option_toString key n.toNat
  rw [ParsesTo, parsePair_of_translator hrow]
  simp only [parsed, hparse]
  constructor
  · intro hinvalid
    rw [if_pos hinvalid]
    exact ⟨_, rfl⟩
  · intro hvalid
    rw [if_neg hvalid]
    rfl

omit hceil in
/-- A name that must not be blank. -/
theorem parsesTo_name {key : String} {blank : OptionFault} {opt : String → ClientOpt}
    (hrow : translator key = some (nonBlank blank opt)) (name : String) :
    ParsesTo (key, name) (Text.trimSpace name = "") (.client (opt name)) := by
  rw [ParsesTo, parsePair_of_translator hrow, nonBlank]
  constructor
  · intro hblank
    rw [if_pos hblank]
    exact ⟨_, rfl⟩
  · intro hname
    rw [if_neg hname]
    rfl

omit hceil in
/-- A switch that is turned away from its default. -/
theorem parsesTo_switch {key : String} {default : Bool} {opt : ClientOpt}
    (hrow : switch key default opt ∈ franzOptionKeys) :
    ParsesTo (key, if default then "false" else "true") False (.client opt) := by
  have htexts : lowerTrim "true" = "true" ∧ lowerTrim "false" = "false" := by
    decide
  have hparse : boolOption key (if default then "false" else "true") = .ok !default := by
    rw [boolOption_eq_ok]
    cases default
    · exact htexts.1
    · exact htexts.2
  refine ⟨False.elim, fun _ => ?_⟩
  have htranslator : translator key = some (switch key default opt).2 := translator_of_mem hrow
  rw [parsePair_of_translator htranslator]
  simp only [switch, parsed, hparse]
  cases default <;> rfl

omit hceil in
theorem parsesTo_of_ok {p : String × String} {setting : Setting}
    (h : parsePair p = .ok (some setting)) : ParsesTo p False setting :=
  ⟨False.elim, fun _ => h⟩

theorem parsesTo_bailAfter {d : ℕ} (hfits : wholeMillis d * 1000000 < 2 ^ 63) :
    ParsesTo ("llingr.poll.error.bail.after.ms", toString (durationMsCeil d))
      (wholeMillis d ≠ 0 ∧ (wholeMillis d < 60000 ∨ 3600000 < wholeMillis d))
      (.pollError (.pollErrorBailAfter (wholeMillis d * 1000000 : ℕ))) := by
  have hparse := @nonNegativeMillisOption_toString "llingr.poll.error.bail.after.ms"
    (wholeMillis d) hfits
  have hrow : ("llingr.poll.error.bail.after.ms", fun raw =>
      (pollErrorBailAfter raw).map .pollError) ∈ adapterParsers := by simp [adapterParsers]
  rw [ParsesTo, parsePair_of_adapter hrow, hceil d hfits]
  constructor
  · intro hinvalid
    rw [pollErrorBailAfter_rejected hparse]
    · exact ⟨_, rfl⟩
    · rw [minPollErrorBailAfter, maxPollErrorBailAfter]
      omega
  · intro hvalid
    rw [pollErrorBailAfter_accepted hparse]
    · rfl
    · rw [minPollErrorBailAfter, maxPollErrorBailAfter]
      omega

theorem parsesTo_logInterval {d : ℕ} (hfits : wholeMillis d * 1000000 < 2 ^ 63) :
    ParsesTo ("llingr.poll.error.log.interval.ms", toString (durationMsCeil d)) (d = 0)
      (.pollError (.pollErrorLogInterval (wholeMillis d * 1000000 : ℕ))) := by
  have hparse := @millisOption_toString "llingr.poll.error.log.interval.ms" (wholeMillis d) hfits
  have hrow : ("llingr.poll.error.log.interval.ms",
      fun raw => (pollErrorLogInterval raw).map .pollError) ∈ adapterParsers := by
    simp [adapterParsers]
  rw [ParsesTo, parsePair_of_adapter hrow, hceil d hfits, pollErrorLogInterval, hparse]
  simp only [wholeMillis_eq_zero_iff]
  constructor
  · rintro rfl
    exact ⟨_, rfl⟩
  · intro hd
    rw [if_neg hd]
    rfl

theorem parsesTo_backoff {d : ℕ} (hfits : wholeMillis d * 1000000 < 2 ^ 63) :
    ParsesTo ("llingr.poll.error.backoff.ms", toString (durationMsCeil d))
      (5000 < wholeMillis d) (.pollError (.pollErrorBackoff (wholeMillis d * 1000000 : ℕ))) := by
  have hparse := @nonNegativeMillisOption_toString "llingr.poll.error.backoff.ms"
    (wholeMillis d) hfits
  have hrow : ("llingr.poll.error.backoff.ms", fun raw =>
      (pollErrorBackoff raw).map .pollError) ∈ adapterParsers := by simp [adapterParsers]
  rw [ParsesTo, parsePair_of_adapter hrow, hceil d hfits]
  constructor
  · intro hinvalid
    rw [pollErrorBackoff_rejected hparse]
    · exact ⟨_, rfl⟩
    · rw [maxPollErrorBackoff]
      omega
  · intro hvalid
    rw [pollErrorBackoff_accepted hparse]
    · rfl
    · rw [maxPollErrorBackoff]
      omega

/-- Every setter's pair is parsed to the setting it asks for, unless its value is invalid. -/
theorem parsesTo_setter {setter : ClientSetter} (hfits : setter.Fits)
    (hreset : setter.ResetNamed) :
    ParsesTo (setter.pair durationMsCeil) setter.Invalid setter.setting := by
  cases setter
  case autoOffsetReset reset =>
    rcases hreset with rfl | rfl
    · exact parsesTo_of_ok rfl
    · exact parsesTo_of_ok rfl
  case clientId id => exact parsesTo_of_ok rfl
  case groupInstanceId id => exact parsesTo_name rfl id
  case rack name => exact parsesTo_name rfl name
  case sessionTimeout d | heartbeatInterval d | rebalanceTimeout d | fetchMaxWait d |
      metadataMaxAge d | dialTimeout d | connectionIdleTimeout d | retryTimeout d =>
    exact parsesTo_duration hceil rfl (hfits d rfl)
  case fetchMinBytes n | fetchMaxBytes n | maxPartitionFetchBytes n | requestRetries n |
      maxConcurrentFetches n =>
    exact parsesTo_count rfl n
  case clientLogLevel level => cases level <;> exact parsesTo_of_ok rfl
  case partitionAssignmentStrategy strategies =>
    have hrow : translator "partition.assignment.strategy" = some assignmentStrategy := rfl
    rw [ParsesTo, ClientSetter.pair, ClientSetter.key, ClientSetter.value,
      parsePair_of_translator hrow]
    constructor
    · rintro rfl
      exact ⟨_, rfl⟩
    · intro hne
      rw [assignmentStrategy_wireNames hne]
      rfl
  case allowAutoTopicCreation =>
    exact @parsesTo_switch "allow.auto.create.topics" false _ (by simp [franzOptionKeys])
  case disableFetchCrcValidation =>
    exact @parsesTo_switch "check.crcs" true _ (by simp [franzOptionKeys])
  case disableClientMetricsPush =>
    exact @parsesTo_switch "enable.metrics.push" true _ (by simp [franzOptionKeys])
  case pollErrorBailAfter d => exact parsesTo_bailAfter hceil (hfits d rfl)
  case pollErrorLogInterval d => exact parsesTo_logInterval hceil (hfits d rfl)
  case pollErrorBackoff d => exact parsesTo_backoff hceil (hfits d rfl)

end

/-! ## What arrives -/

section

variable {durationMsCeil : ℕ → ℕ} {setters : List ClientSetter}

/-- Client setters alone leave their pairs, in order. -/
theorem allEntries_client :
    (Options.build durationMsCeil (setters.map .client)).allEntries =
      setters.map (ClientSetter.pair durationMsCeil) := by
  have hrun : ∀ (setters : List ClientSetter) (o : Options),
      (setters.map Call.client).foldl (Options.apply durationMsCeil) o =
        { o with entries := o.entries ++ setters.map (ClientSetter.pair durationMsCeil) } := by
    intro setters
    induction setters with
    | nil => exact fun o => by simp
    | cons setter setters ih =>
        intro o
        rw [List.map_cons, List.foldl_cons, ih, List.map_cons]
        simp only [Options.apply, Options.push, List.append_assoc]
        rfl
  rw [Options.build, hrun]
  simp [Options.allEntries, Options.securityEntries, Options.securityActive, Options.new]

variable {m : GoMap String String}
  (hm : (Options.build durationMsCeil (setters.map .client)).Arrives m)

include hm

/-- The pairs that arrive are those of the last setter of each key. -/
theorem sorted_perm :
    m.sorted.Perm ((lastSetters setters).map (ClientSetter.pair durationMsCeil)) := by
  have hkeys : (lastSetters setters).Pairwise fun s s' => s.key ≠ s'.key :=
    List.pairwise_pwFilter _
  have hnodup : ((lastSetters setters).map (ClientSetter.pair durationMsCeil)).Nodup := by
    refine List.Nodup.of_map Prod.fst ?_
    rw [List.map_map]
    exact List.pairwise_map.mpr hkeys
  refine (List.perm_ext_iff_of_nodup (m.nodup_keys_sorted.of_map _) hnodup).mpr fun p => ?_
  rw [GoMap.mem_sorted, hm.get?, allEntries_client, Assoc.last_eq_some_iff, List.mem_map]
  constructor
  · rintro ⟨before, after, heq, hafter⟩
    obtain ⟨before', rest, rfl, -, hrest⟩ := List.map_eq_append_iff.mp heq
    obtain ⟨setter, after', rfl, hp, rfl⟩ := List.map_eq_cons_iff.mp hrest
    refine ⟨setter, mem_lastSetters.mpr ⟨before', after', rfl, fun s' hs' hkey => hafter ?_⟩, hp⟩
    rw [List.map_map]
    exact List.mem_map.mpr ⟨s', hs', hkey.symm.trans (congrArg Prod.fst hp)⟩
  · rintro ⟨setter, hsetter, rfl⟩
    obtain ⟨before, after, rfl, hafter⟩ := mem_lastSetters.mp hsetter
    refine ⟨before.map (ClientSetter.pair durationMsCeil),
      after.map (ClientSetter.pair durationMsCeil), by rw [List.map_append, List.map_cons], ?_⟩
    rw [List.map_map]
    intro hmem
    obtain ⟨s', hs', hkey⟩ := List.mem_map.mp hmem
    exact hafter s' hs' hkey.symm

/-- A pair arrives for every last setter, and for nothing else. -/
theorem arrives_iff {p : String × String} :
    m.get? p.1 = some p.2 ↔ ∃ setter ∈ lastSetters setters, setter.pair durationMsCeil = p := by
  rw [← GoMap.mem_sorted, (sorted_perm hm).mem_iff, List.mem_map]

end

/-- Typed client options are applied as written.  The durations are rounded up and fit; the
starts of consumption are the two there are.  Then the translation fails, with a bad option,
exactly when the last setter of some key has an invalid value, and otherwise the settings are
those the last setters of the keys ask for, each once, and no others. -/
theorem clientOptions_applied {Roots Cert : Type} (env : SecurityEnv Roots Cert)
    (durationMsCeil : ℕ → ℕ)
    (hceil : ∀ d, wholeMillis d * 1000000 < 2 ^ 63 → durationMsCeil d = wholeMillis d)
    (setters : List ClientSetter) (hfits : ∀ setter ∈ setters, setter.Fits)
    (hreset : ∀ setter ∈ setters, setter.ResetNamed) (m : GoMap String String)
    (hm : (Options.build durationMsCeil (setters.map .client)).Arrives m) :
    (∀ e, franzOptions env m = .error e → e.code = .badOption) ∧
    ((∃ e, franzOptions env m = .error e) ↔ ∃ setter ∈ lastSetters setters, setter.Invalid) ∧
    ∀ r, franzOptions env m = .ok r →
      r.settings.Perm ((lastSetters setters).map ClientSetter.setting) ∧
        ∀ opt ∈ r.opts, opt.client?.isSome := by
  have hmem : ∀ setter ∈ lastSetters setters, setter ∈ setters :=
    fun _ hsetter => List.pwFilter_subset _ hsetter
  have hparses : ∀ setter ∈ lastSetters setters,
      ParsesTo (setter.pair durationMsCeil) setter.Invalid setter.setting := fun setter hsetter =>
    parsesTo_setter hceil (hfits setter (hmem setter hsetter)) (hreset setter (hmem setter hsetter))
  have hkeys : ∀ key, (m.get? key).isSome → key ∈ clientKeys := by
    intro key hkey
    obtain ⟨value, hvalue⟩ := Option.isSome_iff_exists.mp hkey
    obtain ⟨setter, -, heq⟩ := (arrives_iff hm (p := (key, value))).mp hvalue
    rw [← show setter.key = key from congrArg Prod.fst heq]
    exact (setter_key setter).1
  -- an error comes from an invalid value
  have herror : ∀ e, franzOptions env m = .error e →
      e.code = .badOption ∧ ∃ setter ∈ lastSetters setters, setter.Invalid := by
    intro e he
    obtain ⟨p, hp, hparse⟩ := exists_parse_error hkeys he
    obtain ⟨setter, hsetter, rfl⟩ := (arrives_iff hm).mp hp
    refine ⟨code_of_parsePair hparse, setter, hsetter, ?_⟩
    by_contra hvalid
    rw [(hparses setter hsetter).2 hvalid] at hparse
    cases hparse
  -- an accepted value is not invalid
  have haccepted : ∀ r, franzOptions env m = .ok r →
      ∀ setter ∈ lastSetters setters, ¬ setter.Invalid := by
    intro r hr setter hsetter hinvalid
    have hget : m.get? setter.key = some (setter.value durationMsCeil) :=
      (arrives_iff hm (p := setter.pair durationMsCeil)).mpr ⟨setter, hsetter, rfl⟩
    have hparse := @parsePair_isOk _ _ _ _ _ (consumed_of_franzOptions hr)
      (setter.pair durationMsCeil) hget (setter_key setter).1
    obtain ⟨o, ho⟩ := hparse
    obtain ⟨e, he⟩ := (hparses setter hsetter).1 hinvalid
    rw [ho] at he
    cases he
  refine ⟨fun e he => (herror e he).1, ⟨fun ⟨e, he⟩ => (herror e he).2, ?_⟩, fun r hr => ⟨?_, ?_⟩⟩
  · rintro ⟨setter, hsetter, hinvalid⟩
    cases hr : franzOptions env m with
    | error e => exact ⟨e, rfl⟩
    | ok r => exact absurd hinvalid (haccepted r hr setter hsetter)
  · have hsettings : ((lastSetters setters).map (ClientSetter.pair durationMsCeil)).filterMap
        settingOf = (lastSetters setters).map ClientSetter.setting := by
      rw [List.filterMap_map, ← List.filterMap_eq_map]
      refine List.filterMap_congr fun setter hsetter => ?_
      have hvalid := haccepted r hr setter hsetter
      simp only [Function.comp_apply, settingOf, (hparses setter hsetter).2 hvalid]
      rfl
    calc List.Perm r.settings (m.sorted.filterMap settingOf) :=
          settings_perm (consumed_of_franzOptions hr)
      List.Perm _ (((lastSetters setters).map (ClientSetter.pair durationMsCeil)).filterMap
          settingOf) := (sorted_perm hm).filterMap settingOf
      _ = (lastSetters setters).map ClientSetter.setting := hsettings
  · exact client_of_consumed hkeys (consumed_of_franzOptions hr)

/-- A timeout set twice, the second time with a nanosecond to round up, and a preference list
with a repetition. -/
def tunedSetters : List ClientSetter :=
  [.sessionTimeout 0, .clientId "app-7", .partitionAssignmentStrategy [.sticky, .range, .sticky],
    .sessionTimeout 30000000001, .fetchMinBytes 1024, .pollErrorBailAfter 0, .rack "a"]

theorem clientOptions_applied_tuned :
    (∃ r, franzOptions openEnv (Options.build wholeMillis (tunedSetters.map .client)).arrivalMap =
        .ok r ∧
      r.settings.Perm [.client (.clientID "app-7"), .client (.balancers [.sticky, .range, .sticky]),
        .client (.sessionTimeout 30001000000), .client (.fetchMinBytes 1024),
        .pollError (.pollErrorBailAfter 0), .client (.rack "a")]) ∧
    ∃ e, franzOptions openEnv (Options.build wholeMillis
        ((tunedSetters ++ [ClientSetter.rack " "]).map .client)).arrivalMap = .error e ∧
      e.code = .badOption := by
  have hfits : ∀ setter ∈ tunedSetters ++ [.rack " "], setter.Fits := by
    simp [tunedSetters, ClientSetter.Fits, ClientSetter.duration?, wholeMillis]
  have hreset : ∀ setter ∈ tunedSetters ++ [.rack " "], setter.ResetNamed := by
    simp [tunedSetters, ClientSetter.ResetNamed]
  constructor
  · obtain ⟨-, hrefused, happlied⟩ := clientOptions_applied openEnv wholeMillis (fun _ _ => rfl)
      tunedSetters (fun s hs => hfits s (List.mem_append_left _ hs))
      (fun s hs => hreset s (List.mem_append_left _ hs)) _ (Options.arrives_arrivalMap _)
    have hlast : lastSetters tunedSetters = tunedSetters.tail := by decide
    cases hr : franzOptions openEnv
        (Options.build wholeMillis (tunedSetters.map .client)).arrivalMap with
    | error e =>
        obtain ⟨setter, hsetter, hinvalid⟩ := hrefused.mp ⟨e, hr⟩
        rw [hlast] at hsetter
        simp only [tunedSetters, List.tail_cons, List.mem_cons, List.not_mem_nil, or_false]
          at hsetter
        rcases hsetter with rfl | rfl | rfl | rfl | rfl | rfl <;>
          exact absurd hinvalid (by simp [ClientSetter.Invalid, wholeMillis]; try decide)
    | ok r =>
        have hperm := (happlied r hr).1
        rw [hlast] at hperm
        exact ⟨r, rfl, hperm⟩
  · obtain ⟨hcode, hrefused, -⟩ := clientOptions_applied openEnv wholeMillis (fun _ _ => rfl)
      (tunedSetters ++ [.rack " "]) hfits hreset _ (Options.arrives_arrivalMap _)
    have hlast : ClientSetter.rack " " ∈ lastSetters (tunedSetters ++ [.rack " "]) := by decide
    obtain ⟨e, he⟩ := hrefused.mpr ⟨_, hlast, (by decide : Text.trimSpace " " = "")⟩
    exact ⟨e, he, hcode e he⟩

end LlingrKafka.Builder
