import LlingrKafka.Builder.ClientOptions
import LlingrKafka.Config.Accepted
import LlingrKafka.Engine.InteriorNul
import LlingrKafka.Foundations.Settles
import LlingrKafka.Options.Wiring
import LlingrKafka.Wire.InitError

/-!
# From the builder to the client

What a host configures, followed through the text that crosses the boundary: the builder's
setters (`src/engine.rs`, `src/options.rs`), the document they are written as
(`src/config.rs`), and what `llingr_init` makes of it (`bridge/config.go`,
`bridge/adapter_franz.go`).  `initConsumer_settles` says that the host's configuration is
what the client is given, or that it is refused for one of five reasons.

The stages are specified one by one, by the condition they refuse on
(`checkRebalanceAboveDrain_settles`, `parseBandwidth_settles`, `franzOptions_settles`), and
composed with `Settles.bind`.
-/

namespace LlingrKafka.Engine

open Bridge Checks LlingrKafka.Config LlingrKafka.Options Security
open LlingrKafka.Builder (ClientSetter wholeMillis lastSetters)

/-- A duration of the host, in the nanoseconds the bridge works with. -/
def wholeNanos (ns : ℕ) : ℤ := (wholeMillis ns * 1000000 : ℕ)

theorem wholeNanos_le_zero_iff {ns : ℕ} : wholeNanos ns ≤ 0 ↔ ns = 0 := by
  unfold wholeNanos wholeMillis
  omega

section

variable {durationMsCeil : ℕ → ℕ}

theorem eq_wholeMillis (hceil : CeilsMs durationMsCeil) (ns : ℕ) :
    durationMsCeil ns = wholeMillis ns := by
  obtain ⟨-, hle, hlt⟩ := hceil ns
  unfold wholeMillis
  push_cast at hle hlt
  omega

theorem eq_wholeNanos {ns : ℕ} {v : ℤ} (h : RoundedUp ns v) : v = wholeNanos ns := by
  obtain ⟨hdvd, hle, hlt⟩ := h
  unfold wholeNanos wholeMillis
  omega

end

/-! ## What is configured -/

namespace Builder

/-- The options the builder was given are these setters. -/
def HasSetters (durationMsCeil : ℕ → ℕ) (b : Builder) (setters : List ClientSetter) : Prop :=
  b.broker.kafkaConfig = setters.map (ClientSetter.pair durationMsCeil)

/-- Each call of `options` adds to them. -/
theorem HasSetters.options {durationMsCeil : ℕ → ℕ} {b : Builder} {setters : List ClientSetter}
    (h : b.HasSetters durationMsCeil setters) (more : List ClientSetter) :
    (b.options (LlingrKafka.Builder.Options.build durationMsCeil (more.map .client))).HasSetters
      durationMsCeil (setters ++ more) := by
  show b.broker.kafkaConfig ++ _ = _
  rw [h, LlingrKafka.Builder.allEntries_client, List.map_append]

/-- The engine's drain timeout; zero stands for its default. -/
def drainTimeout (b : Builder) : ℤ :=
  match b.demux.drainTimeout with
  | none | some 0 => engineDefaultDrainTimeout
  | some ns => wholeNanos ns

/-- A part of the identity is missing. -/
def Unidentified (b : Builder) : Prop :=
  b.topic = "" ∨ b.broker.brokers = "" ∨ b.broker.consumerGroup = ""

instance (b : Builder) : Decidable b.Unidentified := inferInstanceAs (Decidable (_ ∨ _))

end Builder

/-- The rebalance timeout of a setter. -/
def rebalance? : ClientSetter → Option ℕ
  | .rebalanceTimeout d => some d
  | _ => none

/-- The rebalance timeout that is asked for last, or the client's default. -/
def rebalanceTimeout (setters : List ClientSetter) : ℤ :=
  ((lastSetters setters).findSome? rebalance?).elim kgoDefaultRebalanceTimeout wholeNanos

/-- What the bridge asks of a builder with an identity. -/
structure Acceptable (config : ConfigEnv) (setters : List ClientSetter) (b : Builder) : Prop where
  rebalance : b.drainTimeout < rebalanceTimeout setters
  statsInterval : ∀ ns ∈ b.bandwidthStatsInterval,
    config.validateBandwidthInterval (wholeNanos ns) = none
  flushInterval : b.bandwidthFlushInterval ≠ some 0
  setter : ∀ setter ∈ lastSetters setters, ¬ setter.Invalid

/-- The durations fit in 64 bits of nanoseconds, and the starts of consumption are the two
there are. -/
structure Fits (durationMsCeil : ℕ → ℕ) (setters : List ClientSetter) (b : Builder) : Prop where
  setter : ∀ setter ∈ setters, setter.Fits
  reset : ∀ setter ∈ setters, setter.ResetNamed
  demux : ∀ tag ns, b.demux.setting tag = some (.duration ns) → MsFits durationMsCeil ns
  statsInterval : ∀ ns ∈ b.bandwidthStatsInterval, MsFits durationMsCeil ns
  flushInterval : ∀ ns ∈ b.bandwidthFlushInterval, MsFits durationMsCeil ns

/-- The adapter is the one the host configured. -/
structure Wired {Roots Cert : Type} (callbacks : CallbackSet) (setters : List ClientSetter)
    (b : Builder) (a : FranzAdapter Roots Cert) : Prop where
  consumerGroup : a.consumerGroup = b.broker.consumerGroup
  topic : a.topic = b.topic
  seeds : a.seeds = (b.broker.brokers.toList.splitOn ',').map String.ofList
  service : a.wiring.builder.service = b.service
  /-- Every engine setting has its value, durations rounded up, and the others are zero. -/
  demux : ∀ tag : DemuxTag, a.demux tag.name =
    match b.demux.setting tag with
    | none => 0
    | some (.count n) => n.toNat
    | some (.duration ns) => wholeNanos ns
  /-- The last call for each key is applied once, after the isolation level. -/
  settings : a.settings.Perm (.client (.fetchIsolationLevel .readCommitted) ::
    (lastSetters setters).map ClientSetter.setting)
  unsecured : ∀ opt ∈ a.opts, opt.client?.isSome
  isolation : fetchIsolation a.opts = .readCommitted
  rebalance : clientRebalance a.opts = rebalanceTimeout setters
  drained : b.drainTimeout < clientRebalance a.opts
  /-- Bandwidth is collected for a host that asked for it, at its intervals. -/
  statsInterval : a.wiring.bandwidthInterval =
    if callbacks.bandwidth then some (b.bandwidthStatsInterval.elim 0 wholeNanos) else none
  flushInterval : a.wiring.builder.bandwidthFlushInterval =
    if callbacks.bandwidth then b.bandwidthFlushInterval.map wholeNanos else none
  logger : a.wiring.builder.logger = callbacks.log

section

variable {Roots Cert : Type} {config : ConfigEnv} {env : SecurityEnv Roots Cert}
  {callbacks : CallbackSet} {durationMsCeil : ℕ → ℕ} {b : Builder} {setters : List ClientSetter}
  {cfg : BridgeConfig} {m : GoMap String String}

/-- What a builder leaves in the decoded configuration. -/
def CarriesBuilder (config : ConfigEnv) (durationMsCeil : ℕ → ℕ) (b : Builder)
    (cfg : BridgeConfig) : Prop :=
  Carries config durationMsCeil b.topic b.broker b.demux b.service b.bandwidthStatsInterval
    b.bandwidthFlushInterval cfg

/-! ## The map -/

/-- The option map is the one the setters' pairs arrive as. -/
theorem arrives_of_carries (hsetters : b.HasSetters durationMsCeil setters)
    (hcarries : CarriesBuilder config durationMsCeil b cfg)
    (hm : ∀ key, m.get? key = cfg.kafkaConfig key) :
    (LlingrKafka.Builder.Options.build durationMsCeil (setters.map .client)).Arrives m := by
  intro key
  have hlast : cfg.kafkaConfig key = Assoc.last b.broker.kafkaConfig key := by
    refine Option.ext fun value => ?_
    rw [hcarries.kafkaConfig, Assoc.last_eq_some_iff]
  rw [hm, hlast, hsetters, ← LlingrKafka.Builder.allEntries_client,
    Assoc.last_foldl_put _ key (by simp), List.nil_append]

/-! ## The rebalance guard -/

theorem eq_rebalanceTimeout {setter : ClientSetter} (h : setter.key = "rebalance.timeout.ms") :
    ∃ d, setter = .rebalanceTimeout d := by
  cases setter <;> simp [ClientSetter.key] at h ⊢

theorem rebalance?_eq_some {setter : ClientSetter} {d : ℕ} (h : rebalance? setter = some d) :
    setter = .rebalanceTimeout d := by
  cases setter <;> first | exact congrArg _ (Option.some_inj.mp h) | cases h

/-- The guard compares what the last setter asked for, unless that is zero. -/
theorem guardRebalance_setters (hceil : CeilsMs durationMsCeil)
    (hfits : ∀ setter ∈ setters, setter.Fits)
    (harrives :
      (LlingrKafka.Builder.Options.build durationMsCeil (setters.map .client)).Arrives m) :
    guardRebalance (m.get? "rebalance.timeout.ms") =
      if rebalanceTimeout setters ≤ 0 then none else some (rebalanceTimeout setters) := by
  unfold rebalanceTimeout
  cases hlast : (lastSetters setters).findSome? rebalance? with
  | none =>
      have hget : m.get? "rebalance.timeout.ms" = none := by
        rw [Option.eq_none_iff_forall_ne_some]
        intro value hvalue
        obtain ⟨setter, hsetter, hpair⟩ := (LlingrKafka.Builder.arrives_iff harrives
          (p := ("rebalance.timeout.ms", value))).mp hvalue
        obtain ⟨d, rfl⟩ := eq_rebalanceTimeout (congrArg Prod.fst hpair)
        exact absurd (List.findSome?_eq_none_iff.mp hlast _ hsetter) (Option.some_ne_none d)
      rw [hget]
      rfl
  | some d =>
      obtain ⟨setter, hsetter, hd⟩ := List.exists_of_findSome?_eq_some hlast
      obtain rfl := rebalance?_eq_some hd
      have hget : m.get? "rebalance.timeout.ms" = some (toString (durationMsCeil d)) :=
        (LlingrKafka.Builder.arrives_iff harrives
          (p := ("rebalance.timeout.ms", toString (durationMsCeil d)))).mpr ⟨_, hsetter, rfl⟩
      have hfit : wholeMillis d * 1000000 < 2 ^ 63 :=
        hfits _ (List.pwFilter_subset _ hsetter) d rfl
      rw [hget, guardRebalance, eq_wholeMillis hceil d,
        LlingrKafka.Builder.millisOption_toString hfit, Option.elim_some]
      have hzero : wholeNanos d ≤ 0 ↔ wholeMillis d = 0 := by
        rw [wholeNanos_le_zero_iff, LlingrKafka.Builder.wholeMillis_eq_zero_iff]
      by_cases hd : wholeMillis d = 0
      · rw [if_pos hd, if_pos (hzero.mpr hd)]
        rfl
      · rw [if_neg hd, if_neg (mt hzero.mp hd)]
        rfl

/-- The drain timeout the guard compares with. -/
theorem effectiveDrain_of_carries (hcarries : CarriesBuilder config durationMsCeil b cfg) :
    effectiveDrain cfg = b.drainTimeout := by
  unfold effectiveDrain Builder.drainTimeout
  cases hdrain : b.demux.drainTimeout with
  | none =>
      have hzero : cfg.demux "drainTimeout" = 0 :=
        hcarries.unset .drainTimeout (by rw [DemuxConfig.setting, hdrain]; rfl)
      rw [hzero]
      rfl
  | some ns =>
      have hvalue : cfg.demux "drainTimeout" = wholeNanos ns :=
        eq_wholeNanos
          (hcarries.duration .drainTimeout ns (by rw [DemuxConfig.setting, hdrain]; rfl))
      rw [hvalue]
      cases ns with
      | zero => rfl
      | succ ns =>
          rw [if_neg (mt wholeNanos_le_zero_iff.mp (Nat.succ_ne_zero ns))]
          rfl

theorem checkRebalanceAboveDrain_settles (hceil : CeilsMs durationMsCeil)
    (hfits : ∀ setter ∈ setters, setter.Fits)
    (hcarries : CarriesBuilder config durationMsCeil b cfg)
    (harrives : (LlingrKafka.Builder.Options.build durationMsCeil (setters.map .client)).Arrives m)
    (hm : ∀ key, m.get? key = cfg.kafkaConfig key) :
    Settles (checkRebalanceAboveDrain cfg)
      (0 < rebalanceTimeout setters ∧ rebalanceTimeout setters ≤ b.drainTimeout)
      (·.code = .badOption) fun _ => True := by
  rw [checkRebalanceAboveDrain, ← hm, guardRebalance_setters hceil hfits harrives]
  by_cases hzero : rebalanceTimeout setters ≤ 0
  · rw [if_pos hzero]
    exact ⟨fun h => absurd h.1 (not_lt.mpr hzero), fun _ => ⟨(), rfl, trivial⟩⟩
  · rw [if_neg hzero, effectiveDrain_of_carries hcarries]
    refine Settles.reject.mono ?_ (fun e _ he => ?_) fun _ _ _ => trivial
    · rw [and_iff_right (not_le.mp hzero)]
    · rw [he]
      rfl

/-! ## The bandwidth intervals -/

theorem msText_ne_empty (n : ℕ) : Duration.msText n ≠ "" := by
  intro hempty
  have hlist := Duration.toList_msText n
  rw [hempty] at hlist
  exact absurd hlist.symm (by simp)

theorem parseDuration_msText {ns : ℕ} (hceil : CeilsMs durationMsCeil)
    (hfits : MsFits durationMsCeil ns) :
    config.parseDuration (Duration.msText (durationMsCeil ns)) = .ok (wholeNanos ns) := by
  rw [ConfigEnv.parseDuration, Duration.parse_msText hfits, wholeNanos, eq_wholeMillis hceil]
  rfl

theorem parseStatsInterval_settles (hceil : CeilsMs durationMsCeil) {statsInterval : Option ℕ}
    (hfits : ∀ ns ∈ statsInterval, MsFits durationMsCeil ns) :
    Settles (config.parseStatsInterval
        (statsInterval.elim "" fun ns => Duration.msText (durationMsCeil ns)))
      (∃ ns ∈ statsInterval, config.validateBandwidthInterval (wholeNanos ns) ≠ none)
      (·.code = .badOption) (· = statsInterval.elim 0 wholeNanos) := by
  cases statsInterval with
  | none => exact ⟨fun h => absurd h (by simp), fun _ => ⟨0, rfl, rfl⟩⟩
  | some ns =>
      have hparse := @parseDuration_msText config durationMsCeil ns hceil (hfits ns rfl)
      rw [Option.elim_some, ConfigEnv.parseStatsInterval, if_neg (msText_ne_empty _), hparse]
      dsimp only
      cases hvalid : config.validateBandwidthInterval (wholeNanos ns) with
      | none =>
          refine ⟨?_, fun _ => ⟨_, rfl, rfl⟩⟩
          rintro ⟨ns', hns', hinvalid⟩
          obtain rfl := Option.some_inj.mp hns'
          exact absurd hvalid hinvalid
      | some text =>
          refine ⟨fun _ => ⟨_, rfl, rfl⟩, fun hvalid' => absurd ⟨ns, rfl, ?_⟩ hvalid'⟩
          rw [hvalid]
          exact Option.some_ne_none text

theorem parseFlushInterval_settles (hceil : CeilsMs durationMsCeil) {flushInterval : Option ℕ}
    (hfits : ∀ ns ∈ flushInterval, MsFits durationMsCeil ns) :
    Settles (config.parseFlushInterval
        (flushInterval.elim "" fun ns => Duration.msText (durationMsCeil ns)))
      (flushInterval = some 0) (·.code = .badOption) (· = flushInterval.elim 0 wholeNanos) := by
  cases flushInterval with
  | none => exact ⟨fun h => absurd h (by simp), fun _ => ⟨0, rfl, rfl⟩⟩
  | some ns =>
      have hparse := @parseDuration_msText config durationMsCeil ns hceil (hfits ns rfl)
      rw [Option.elim_some, ConfigEnv.parseFlushInterval, if_neg (msText_ne_empty _), hparse]
      dsimp only
      by_cases hzero : ns = 0
      · rw [if_pos (wholeNanos_le_zero_iff.mpr hzero), hzero]
        exact ⟨fun _ => ⟨_, rfl, rfl⟩, fun h => absurd rfl h⟩
      · rw [if_neg (mt wholeNanos_le_zero_iff.mp hzero)]
        exact ⟨fun h => absurd (Option.some_inj.mp h) hzero, fun _ => ⟨_, rfl, rfl⟩⟩

theorem parseBandwidth_settles (hceil : CeilsMs durationMsCeil)
    (hfits : Fits durationMsCeil setters b)
    (hcarries : CarriesBuilder config durationMsCeil b cfg) :
    Settles (config.parseBandwidth cfg.bandwidth)
      ((∃ ns ∈ b.bandwidthStatsInterval, config.validateBandwidthInterval (wholeNanos ns) ≠ none) ∨
        b.bandwidthFlushInterval = some 0)
      (·.code = .badOption)
      (· = ⟨b.bandwidthStatsInterval.elim 0 wholeNanos,
        b.bandwidthFlushInterval.elim 0 wholeNanos⟩) := by
  have hparse : config.parseBandwidth cfg.bandwidth =
      config.parseStatsInterval (b.bandwidthStatsInterval.elim "" fun ns =>
        Duration.msText (durationMsCeil ns)) >>= fun stats =>
          (config.parseFlushInterval (b.bandwidthFlushInterval.elim "" fun ns =>
            Duration.msText (durationMsCeil ns))).map fun flush => ⟨stats, flush⟩ := by
    rw [hcarries.bandwidth_text]
    split_ifs with hnone
    · rw [hnone.1, hnone.2]
      rfl
    · rfl
  rw [hparse]
  have hflush : ∀ stats, stats = b.bandwidthStatsInterval.elim 0 wholeNanos →
      Settles ((config.parseFlushInterval (b.bandwidthFlushInterval.elim "" fun ns =>
          Duration.msText (durationMsCeil ns))).map (ParsedBandwidth.mk stats))
        (b.bandwidthFlushInterval = some 0) (·.code = .badOption)
        (· = ⟨b.bandwidthStatsInterval.elim 0 wholeNanos,
          b.bandwidthFlushInterval.elim 0 wholeNanos⟩) := by
    rintro stats rfl
    refine (parseFlushInterval_settles hceil hfits.flushInterval).map fun flush hflush => ?_
    rw [hflush]
  exact (parseStatsInterval_settles hceil hfits.statsInterval).andThen hflush

/-! ## The options -/

/-- The translation refuses an invalid value of a last setter, and applies the others. -/
theorem franzOptions_settles (hceil : CeilsMs durationMsCeil)
    (hfits : Fits durationMsCeil setters b)
    (harrives :
      (LlingrKafka.Builder.Options.build durationMsCeil (setters.map .client)).Arrives m) :
    Settles (franzOptions env m) (∃ setter ∈ lastSetters setters, setter.Invalid)
      (·.code = .badOption)
      fun r => Consumed env m r ∧
        r.settings.Perm ((lastSetters setters).map ClientSetter.setting) ∧
        ∀ opt ∈ r.opts, opt.client?.isSome := by
  -- each last value is parsed on its own
  have hparses : ∀ setter ∈ lastSetters setters, LlingrKafka.Builder.ParsesTo
      (setter.pair durationMsCeil) setter.Invalid setter.setting := by
    intro setter hsetter
    have hmem : setter ∈ setters := List.pwFilter_subset _ hsetter
    exact LlingrKafka.Builder.parsesTo_setter (fun d _ => eq_wholeMillis hceil d)
      (hfits.setter setter hmem) (hfits.reset setter hmem)
  have hkeys : ∀ key, (m.get? key).isSome → key ∈ clientKeys := by
    intro key hkey
    obtain ⟨value, hvalue⟩ := Option.isSome_iff_exists.mp hkey
    obtain ⟨setter, -, hpair⟩ :=
      (LlingrKafka.Builder.arrives_iff harrives (p := (key, value))).mp hvalue
    rw [← show setter.key = key from congrArg Prod.fst hpair]
    exact (LlingrKafka.Builder.setter_key setter).1
  cases hresult : franzOptions env m with
  | error e =>
      -- an error is that of one pair, so of a setter's value
      obtain ⟨p, hp, hparse⟩ := exists_parse_error hkeys hresult
      obtain ⟨setter, hsetter, rfl⟩ := (LlingrKafka.Builder.arrives_iff harrives).mp hp
      refine ⟨fun _ => ⟨e, rfl, code_of_parsePair hparse⟩, fun hvalid => ?_⟩
      rw [(hparses setter hsetter).2 fun hinvalid => hvalid ⟨setter, hsetter, hinvalid⟩] at hparse
      cases hparse
  | ok r =>
      have hconsumed := consumed_of_franzOptions hresult
      have hvalid : ∀ setter ∈ lastSetters setters, ¬ setter.Invalid := by
        intro setter hsetter hinvalid
        have hget : m.get? setter.key = some (setter.value durationMsCeil) :=
          (LlingrKafka.Builder.arrives_iff harrives (p := setter.pair durationMsCeil)).mpr
            ⟨setter, hsetter, rfl⟩
        obtain ⟨o, ho⟩ := @parsePair_isOk _ _ _ _ _ hconsumed (setter.pair durationMsCeil) hget
          (LlingrKafka.Builder.setter_key setter).1
        obtain ⟨e, he⟩ := (hparses setter hsetter).1 hinvalid
        rw [ho] at he
        cases he
      -- what is returned is what the pairs parse to, in the order of the map
      have hsettings : ((lastSetters setters).map (ClientSetter.pair durationMsCeil)).filterMap
          settingOf = (lastSetters setters).map ClientSetter.setting := by
        rw [List.filterMap_map, ← List.filterMap_eq_map]
        refine List.filterMap_congr fun setter hsetter => ?_
        simp only [Function.comp_apply, settingOf,
          (hparses setter hsetter).2 (hvalid setter hsetter)]
        rfl
      refine ⟨?_, fun _ => ⟨r, rfl, hconsumed, ?_, client_of_consumed hkeys hconsumed⟩⟩
      · rintro ⟨setter, hsetter, hinvalid⟩
        exact absurd hinvalid (hvalid setter hsetter)
      · calc List.Perm r.settings (m.sorted.filterMap settingOf) := settings_perm hconsumed
          List.Perm _ (((lastSetters setters).map (ClientSetter.pair durationMsCeil)).filterMap
              settingOf) := (LlingrKafka.Builder.sorted_perm harrives).filterMap settingOf
          _ = (lastSetters setters).map ClientSetter.setting := hsettings

/-! ## The stages together -/

/-- A timeout of zero is a value the setter documents as invalid. -/
theorem invalid_of_rebalanceTimeout (h : rebalanceTimeout setters ≤ 0) :
    ∃ setter ∈ lastSetters setters, setter.Invalid := by
  unfold rebalanceTimeout at h
  cases hlast : (lastSetters setters).findSome? rebalance? with
  | none =>
      rw [hlast] at h
      exact absurd h (by decide)
  | some d =>
      rw [hlast] at h
      obtain ⟨setter, hsetter, hd⟩ := List.exists_of_findSome?_eq_some hlast
      obtain rfl := rebalance?_eq_some hd
      exact ⟨_, hsetter, wholeNanos_le_zero_iff.mp h⟩

/-- What the stages refuse is what is not acceptable. -/
theorem not_acceptable_iff :
    (0 < rebalanceTimeout setters ∧ rebalanceTimeout setters ≤ b.drainTimeout) ∨
        ((∃ ns ∈ b.bandwidthStatsInterval,
          config.validateBandwidthInterval (wholeNanos ns) ≠ none) ∨
            b.bandwidthFlushInterval = some 0) ∨
          (∃ setter ∈ lastSetters setters, setter.Invalid) ∨ False ↔
      ¬ Acceptable config setters b := by
  constructor
  · rintro (⟨-, hle⟩ | (⟨ns, hns, hinvalid⟩ | hflush) | ⟨setter, hsetter, hinvalid⟩ | hfalse) h
    · exact absurd h.rebalance (not_lt.mpr hle)
    · exact hinvalid (h.statsInterval ns hns)
    · exact h.flushInterval hflush
    · exact h.setter setter hsetter hinvalid
    · exact hfalse
  · intro h
    by_contra hnone
    push Not at hnone
    obtain ⟨hrebalance, ⟨hstats, hflush⟩, hvalid, -⟩ := hnone
    refine h ⟨?_, hstats, hflush, hvalid⟩
    by_cases hpos : 0 < rebalanceTimeout setters
    · exact hrebalance hpos
    · obtain ⟨setter, hsetter, hinvalid⟩ := invalid_of_rebalanceTimeout (not_lt.mp hpos)
      exact absurd hinvalid (hvalid setter hsetter)

theorem optionStage_settles (hceil : CeilsMs durationMsCeil) (hfits : Fits durationMsCeil setters b)
    (hcarries : CarriesBuilder config durationMsCeil b cfg)
    (harrives : (LlingrKafka.Builder.Options.build durationMsCeil (setters.map .client)).Arrives m)
    (hm : ∀ key, m.get? key = cfg.kafkaConfig key) :
    Settles (optionStage config env cfg m) (¬ Acceptable config setters b) (·.code = .badOption)
      fun r => r.1 = ⟨b.bandwidthStatsInterval.elim 0 wholeNanos,
          b.bandwidthFlushInterval.elim 0 wholeNanos⟩ ∧
        ∃ r', Consumed env m r' ∧
          r'.settings.Perm ((lastSetters setters).map ClientSetter.setting) ∧
          (∀ opt ∈ r'.opts, opt.client?.isSome) ∧
          r.2 = { r' with opts := bridgeOpts r'.opts } := by
  have hguard : Settles ((checkRebalanceAboveDrain cfg).mapError
      (OptionFault.toBridgeError config.quote)) _ (·.code = .badOption) _ :=
    (checkRebalanceAboveDrain_settles hceil hfits.setter hcarries harrives hm).mapError fun _ => id
  have hbandwidth : Settles (config.parseBandwidth cfg.bandwidth) _ (·.code = .badOption) _ :=
    parseBandwidth_settles hceil hfits hcarries
  have hoptions : Settles ((franzOptions env m).mapError
      (OptionFault.toBridgeError config.quote)) _ (·.code = .badOption) _ :=
    (franzOptions_settles hceil hfits harrives).mapError fun _ => id
  refine (hguard.andThen fun _ _ => hbandwidth.andThen fun bw hbw =>
    hoptions.andThen fun r hr =>
      Settles.ok ⟨hbw, r, hr.1, hr.2.1, hr.2.2, rfl⟩).mono not_acceptable_iff (fun _ _ => id)
    fun _ _ => id

/-- Past the stages, what is wired is what was configured. -/
theorem wired_of_stages (hacceptable : Acceptable config setters b)
    (hcarries : CarriesBuilder config durationMsCeil b cfg)
    (hm : ∀ key, m.get? key = cfg.kafkaConfig key)
    {r : ParsedBandwidth × FranzOptions Roots Cert} (hr : optionStage config env cfg m = .ok r)
    (hbw : r.1 = ⟨b.bandwidthStatsInterval.elim 0 wholeNanos,
      b.bandwidthFlushInterval.elim 0 wholeNanos⟩)
    {r' : FranzOptions Roots Cert} (hconsumed : Consumed env m r')
    (hsettings : r'.settings.Perm ((lastSetters setters).map ClientSetter.setting))
    (hclient : ∀ opt ∈ r'.opts, opt.client?.isSome)
    (hopts : r.2 = { r' with opts := bridgeOpts r'.opts })
    (hguard : guardRebalance (m.get? "rebalance.timeout.ms") = some (rebalanceTimeout setters)) :
    Wired callbacks setters b (wire callbacks cfg r) := by
  -- the guard and the translator read one value, so the client gets what was compared
  obtain ⟨hcompared, hdrained⟩ := rebalance_exceeds_drain hm hr
  rw [hm] at hguard
  have hrebalance : clientRebalance r.2.opts = rebalanceTimeout setters :=
    Option.some_inj.mp (hcompared.symm.trans hguard)
  rw [effectiveDrain_of_carries hcarries] at hdrained
  obtain ⟨bw, franz⟩ := r
  obtain rfl : bw = _ := hbw
  obtain rfl : franz = _ := hopts
  constructor
  case consumerGroup => exact hcarries.consumerGroup
  case topic => exact hcarries.topic
  case seeds =>
    show (cfg.brokers.toList.splitOn ',').map String.ofList = _
    rw [hcarries.brokers]
  case service =>
    show cfg.service.map (fun s => (s.name, s.team)) = b.service
    rw [hcarries.service, Option.map_map]
    exact Option.map_id' ..
  case demux =>
    intro tag
    show cfg.demux tag.name = _
    cases hsetting : b.demux.setting tag with
    | none => exact hcarries.unset tag hsetting
    | some setting =>
        cases setting with
        | count n => exact hcarries.count tag n hsetting
        | duration ns => exact eq_wholeNanos (hcarries.duration tag ns hsetting)
  case settings =>
    -- the adapter puts the isolation level in front of the setters
    have hfirst : (FranzAdapter.settings (wire callbacks cfg
        (⟨b.bandwidthStatsInterval.elim 0 wholeNanos, b.bandwidthFlushInterval.elim 0 wholeNanos⟩,
          { r' with opts := bridgeOpts r'.opts }))).Perm
        (.client (.fetchIsolationLevel .readCommitted) :: r'.settings) := List.perm_middle
    exact hfirst.trans (hsettings.cons _)
  case unsecured =>
    rintro opt (_ | ⟨_, hopt⟩)
    · rfl
    · exact hclient opt hopt
  case isolation => exact hconsumed.committed
  case rebalance => exact hrebalance
  case drained => exact hdrained
  case statsInterval => rfl
  case flushInterval =>
    show (if callbacks.bandwidth ∧ b.bandwidthFlushInterval.elim 0 wholeNanos > 0 then
      some (b.bandwidthFlushInterval.elim 0 wholeNanos) else none) = _
    cases hflush : b.bandwidthFlushInterval with
    | none => simp
    | some ns =>
        have hne : ns ≠ 0 := by
          rintro rfl
          exact hacceptable.flushInterval hflush
        have hpos : 0 < wholeNanos ns := not_le.mp (mt wholeNanos_le_zero_iff.mp hne)
        simp [hpos]
  case logger => rfl

end

/-- The host reads the text of a refusal, as much of it as its buffer holds, and not the text
`init_failure_text` has for the code. -/
theorem refusal_arrives {Roots Cert : Type} {config : ConfigEnv} {env : SecurityEnv Roots Cert}
    {callbacks : CallbackSet} {data : Utf8.Bytes} {m : GoMap String String} {e : BridgeError}
    (h : initConsumer config env callbacks data m = .error e) :
    ∃ text, Utf8.LongestPrefix Wire.initErrCap e.msg text ∧ text ≠ "" ∧
      Wire.buildFailureText e.code.rc (some (Utf8.encode e.msg)) = some text :=
  Wire.buildFailureText_message e.code.rc (initConsumer_msg config env callbacks h)

/-- Options in two calls; the first asks for a rebalance timeout below the drain timeout, and
the second, when it is made, for one above. -/
def drainingSetters : List ClientSetter := [.rebalanceTimeout 10000000000, .clientId "app-7"]

def raisedSetters : List ClientSetter := [.rebalanceTimeout 30000000001, .fetchMinBytes 1024]

def drainingBuilder : Builder :=
  { (((Builder.new "orders").brokers "b1:9092,b2:9092").consumerGroup "grp").options
      (LlingrKafka.Builder.Options.build msCeil (drainingSetters.map .client)) with
    demux := { (Builder.new "orders").demux with drainTimeout := some 25000000000 }
    service := some ("svc", "team")
    bandwidthStatsInterval := some 5000000000 }

def raisedBuilder : Builder :=
  drainingBuilder.options (LlingrKafka.Builder.Options.build msCeil (raisedSetters.map .client))

/-- The pairs as the map they are decoded to. -/
def settersMap (setters : List ClientSetter) : GoMap String String :=
  (LlingrKafka.Builder.Options.build msCeil (setters.map .client)).arrivalMap

theorem settersMap_agrees {b : Builder} {setters : List ClientSetter}
    (hsetters : b.HasSetters msCeil setters) {cfg : BridgeConfig}
    (h : byNameEnv.parseBridgeConfig (Utf8.encode (b.document msCeil)) = .ok cfg) (key : String) :
    (settersMap setters).get? key = cfg.kafkaConfig key := by
  rw [(accepted_configJson readsByName_byNameEnv h).1, BrokerConfig.dedupedKafkaConfig, hsetters,
    ← LlingrKafka.Builder.allEntries_client]
  rfl

end LlingrKafka.Engine
