import LlingrKafka.Config.Decode
import LlingrKafka.Config.Document

/-!
# The document arrives as it was written

`configJson_roundTrip`: what `config_json` writes is a well-formed object without
duplicate names or control characters, and `parseBridgeConfig` reads the same settings
from it.  The text is parsed to `docValue` (`parses_configJson`); the strict decode stores
the members of that tree one after the other (`stores_docValue`), and the key check finds
only tags of the engine's configuration.

What the engine does with its own object is assumed as `DecodesByName`: each setting is
read under its tag, counts as numbers and durations by `time.ParseDuration`.
-/

namespace LlingrKafka.Config

open Bridge Json JsonDecode

/-- The settings written as durations. -/
def DemuxTag.isDuration : DemuxTag → Bool
  | concurrentKeys | perKeyBufferLen | commitIngestChannelLen | commitPartitionSliceLen
  | workerShardsCount => false
  | _ => true

/-- What the JSON value of a setting stands for: a count that fits in 64 bits, or a
duration text. -/
def ConfigEnv.readSetting (env : ConfigEnv) (tag : DemuxTag) (j : Json) : Option ℤ :=
  match tag.isDuration, j with
  | false, .num literal =>
      if literal.all Char.isDigit ∧ Nat.ofDigitChars 10 literal 0 < 2 ^ 63 then
        some (Nat.ofDigitChars 10 literal 0)
      else none
  | true, .str s => (env.parseDuration s).toOption
  | _, _ => none

/-- `config.DemuxConfig` has the thirteen settings and decodes an object of them by name. -/
structure ConfigEnv.DecodesByName (env : ConfigEnv) : Prop where
  tags : ∀ tag : DemuxTag, tag.name ∈ env.demuxTags
  decode : ∀ (members : List (DemuxTag × Json)) (old : DemuxValues),
    (members.map Prod.fst).Nodup → (∀ m ∈ members, (env.readSetting m.1 m.2).isSome) →
      ∃ new, env.unmarshalDemux (.obj (members.map fun m => (m.1.name, m.2))) old = .ok new ∧
        ∀ tag : DemuxTag, new tag.name =
          ((Assoc.last members tag).bind (env.readSetting tag)).getD (old tag.name)

/-- `v` is `ns` rounded up to whole milliseconds. -/
def RoundedUp (ns : ℕ) (v : ℤ) : Prop := 1000000 ∣ v ∧ (ns : ℤ) ≤ v ∧ v < ns + 1000000

/-- The conversion to whole milliseconds rounds up. -/
def CeilsMs (durationMsCeil : ℕ → ℕ) : Prop :=
  ∀ ns, RoundedUp ns ((durationMsCeil ns * 1000000 : ℕ) : ℤ)

/-- A duration in whole milliseconds fits in 64 bits of nanoseconds. -/
def MsFits (durationMsCeil : ℕ → ℕ) (ns : ℕ) : Prop := durationMsCeil ns * 1000000 < 2 ^ 63

/-- The decoded configuration holds exactly what was configured. -/
structure Carries (env : ConfigEnv) (durationMsCeil : ℕ → ℕ) (topic : String)
    (broker : BrokerConfig) (demux : DemuxConfig) (service : Option (String × String))
    (statsInterval flushInterval : Option ℕ) (cfg : BridgeConfig) : Prop where
  adapter : cfg.adapter = adapterFranz
  brokers : cfg.brokers = broker.brokers
  topic : cfg.topic = topic
  consumerGroup : cfg.consumerGroup = broker.consumerGroup
  /-- A key has the value of its last pair. -/
  kafkaConfig : ∀ key value, cfg.kafkaConfig key = some value ↔
    ∃ before after, broker.kafkaConfig = before ++ (key, value) :: after ∧
      key ∉ after.map Prod.fst
  kafkaConfig_none : ∀ key, cfg.kafkaConfig key = none ↔ key ∉ broker.kafkaConfig.map Prod.fst
  service : cfg.service = service.map fun s => ⟨s.1, s.2⟩
  count : ∀ tag n, demux.setting tag = some (.count n) → cfg.demux tag.name = n.toNat
  duration : ∀ tag ns, demux.setting tag = some (.duration ns) →
    RoundedUp ns (cfg.demux tag.name)
  unset : ∀ tag, demux.setting tag = none → cfg.demux tag.name = 0
  /-- The intervals that are set, as texts; no object when none is. -/
  bandwidth_text : cfg.bandwidth =
    if statsInterval = none ∧ flushInterval = none then none
    else some ⟨statsInterval.elim "" fun ns => Duration.msText (durationMsCeil ns),
      flushInterval.elim "" fun ns => Duration.msText (durationMsCeil ns)⟩
  /-- The texts stand for the intervals, if they fit and are accepted. -/
  bandwidth :
    (∀ ns ∈ statsInterval, MsFits durationMsCeil ns ∧
      env.validateBandwidthInterval ((durationMsCeil ns * 1000000 : ℕ) : ℤ) = none) →
    (∀ ns ∈ flushInterval, MsFits durationMsCeil ns ∧ 0 < ns) →
    ∃ bw, env.parseBandwidth cfg.bandwidth = .ok bw ∧
      (∀ ns ∈ statsInterval, RoundedUp ns bw.statsInterval) ∧
      (statsInterval = none → bw.statsInterval = 0) ∧
      (∀ ns ∈ flushInterval, RoundedUp ns bw.flushInterval) ∧
      (flushInterval = none → bw.flushInterval = 0)

/-! ## The demux object -/

section

variable (durationMsCeil : ℕ → ℕ)

/-- The JSON value a setting is written as. -/
def Setting.value : Setting → Json
  | count n => .num (Nat.toDigits 10 n.toNat)
  | duration ns => .str (Duration.msText (durationMsCeil ns))

theorem value_member (name : String) (setting : Setting) :
    (setting.member durationMsCeil name).value = setting.value durationMsCeil := by
  cases setting <;> rfl

theorem name_member (name : String) (setting : Setting) :
    (setting.member durationMsCeil name).name = name := by
  cases setting <;> rfl

variable (demux : DemuxConfig)

/-- The settings that are set, by tag, for the tags of a list. -/
def demuxPairs (tags : List DemuxTag) : List (DemuxTag × Json) :=
  tags.flatMap fun tag => ((demux.setting tag).map fun s => (tag, s.value durationMsCeil)).toList

theorem demuxMembers_eq :
    (demuxMembers durationMsCeil demux).map (fun m => (m.name, m.value)) =
      (demuxPairs durationMsCeil demux DemuxTag.all).map fun m => (m.1.name, m.2) := by
  unfold demuxMembers demuxPairs
  induction DemuxTag.all with
  | nil => rfl
  | cons tag tags ih =>
      rw [List.flatMap_cons, List.flatMap_cons, List.map_append, List.map_append, ih]
      congr 1
      cases demux.setting tag with
      | none => rfl
      | some setting => simp [name_member, value_member]

theorem keys_demuxPairs (tags : List DemuxTag) :
    ((demuxPairs durationMsCeil demux tags).map Prod.fst).Sublist tags := by
  unfold demuxPairs
  induction tags with
  | nil => exact List.Sublist.slnil
  | cons tag tags ih =>
      rw [List.flatMap_cons, List.map_append]
      cases demux.setting tag with
      | none => exact ih.cons tag
      | some setting => exact ih.cons_cons tag

theorem last_demuxPairs {tags : List DemuxTag} (hnodup : tags.Nodup) {tag : DemuxTag}
    (htag : tag ∈ tags) :
    Assoc.last (demuxPairs durationMsCeil demux tags) tag =
      (demux.setting tag).map (Setting.value durationMsCeil) := by
  induction tags with
  | nil => cases htag
  | cons t tags ih =>
      rw [List.nodup_cons] at hnodup
      rw [demuxPairs, List.flatMap_cons, Assoc.last_append]
      by_cases heq : tag = t
      · have hnone : Assoc.last (demuxPairs durationMsCeil demux tags) tag = none := by
          rw [Assoc.last_eq_none_iff]
          intro hmem
          rw [heq] at hmem
          exact hnodup.1 ((keys_demuxPairs durationMsCeil demux tags).subset hmem)
        rw [demuxPairs] at hnone
        rw [hnone, Option.none_or, heq]
        cases demux.setting t with
        | none => rfl
        | some setting => simp [Assoc.last]
      · have hrest := ih hnodup.2 (List.mem_of_ne_of_mem heq htag)
        rw [demuxPairs] at hrest
        rw [hrest]
        cases demux.setting t with
        | none => simp [Assoc.last]
        | some setting => simp [Assoc.last, Ne.symm heq]

/-- Counts are set by counts, durations by durations. -/
theorem isDuration_of_setting {tag : DemuxTag} {setting : Setting}
    (h : demux.setting tag = some setting) :
    (∃ n, setting = .count n ∧ tag.isDuration = false) ∨
      ∃ ns, setting = .duration ns ∧ tag.isDuration = true := by
  cases tag <;>
    (obtain ⟨v, -, rfl⟩ := Option.map_eq_some_iff.mp h; simp [DemuxTag.isDuration])

/-- What a setting is to be read as. -/
def Setting.goValue : Setting → ℤ
  | count n => n.toNat
  | duration ns => ((durationMsCeil ns * 1000000 : ℕ) : ℤ)

variable {durationMsCeil demux}

/-- Every setting is read back, if its duration fits. -/
theorem readSetting_value (env : ConfigEnv) {tag : DemuxTag} {setting : Setting}
    (h : demux.setting tag = some setting)
    (hfits : ∀ ns, setting = .duration ns → MsFits durationMsCeil ns) :
    env.readSetting tag (setting.value durationMsCeil) = some (setting.goValue durationMsCeil) := by
  rcases isDuration_of_setting demux h with ⟨n, rfl, hkind⟩ | ⟨ns, rfl, hkind⟩
  · have hdigits : (Nat.toDigits 10 n.toNat).all Char.isDigit = true :=
      List.all_eq_true.mpr isDigit_of_mem_numeral
    have hlt : n.toNat < 2 ^ 63 := Nat.lt_trans n.toNat_lt (by decide)
    simp only [ConfigEnv.readSetting, hkind, Setting.value, Nat.ofDigitChars_ten_toDigits]
    rw [if_pos ⟨hdigits, hlt⟩]
    rfl
  · simp only [ConfigEnv.readSetting, hkind, Setting.value, ConfigEnv.parseDuration,
      Duration.parse_msText (hfits ns rfl)]
    rfl

theorem setting_of_demuxMembers_nil (h : demuxMembers durationMsCeil demux = []) (tag : DemuxTag) :
    demux.setting tag = none := by
  have hnodup : DemuxTag.all.Nodup := DemuxTag.nodup_names.of_map DemuxTag.name
  have hpairs := demuxMembers_eq durationMsCeil demux
  rw [h, List.map_nil, eq_comm, List.map_eq_nil_iff] at hpairs
  have hlast := last_demuxPairs durationMsCeil demux hnodup (DemuxTag.mem_all tag)
  rw [hpairs, Assoc.last, eq_comm, Option.map_eq_none_iff] at hlast
  exact hlast

/-- The engine reads its object, if the durations fit. -/
theorem exists_unmarshalDemux {env : ConfigEnv} (hdemux : env.DecodesByName)
    (hfits : ∀ tag ns, demux.setting tag = some (.duration ns) → MsFits durationMsCeil ns) :
    ∃ new, Stores env.decodeDemux (objValue (demuxMembers durationMsCeil demux)) (fun _ => 0) new ∧
      ∀ tag : DemuxTag,
        new tag.name = ((demux.setting tag).map (Setting.goValue durationMsCeil)).getD 0 := by
  have hnodup : DemuxTag.all.Nodup := DemuxTag.nodup_names.of_map DemuxTag.name
  have hread : ∀ m ∈ demuxPairs durationMsCeil demux DemuxTag.all,
      (env.readSetting m.1 m.2).isSome := by
    intro m hm
    obtain ⟨tag, -, hm⟩ := List.mem_flatMap.mp hm
    obtain ⟨setting, hsetting, rfl⟩ := Option.map_eq_some_iff.mp (Option.mem_toList.mp hm)
    rw [readSetting_value env hsetting fun ns hns => hfits tag ns (by rw [hsetting, hns])]
    rfl
  obtain ⟨new, hnew, hvalues⟩ := hdemux.decode _ (fun _ => 0)
    ((keys_demuxPairs durationMsCeil demux DemuxTag.all).nodup hnodup) hread
  refine ⟨new, ?_, fun tag => ?_⟩
  · rw [objValue, demuxMembers_eq, Stores, ConfigEnv.decodeDemux, hnew]
    rfl
  · rw [hvalues tag, last_demuxPairs durationMsCeil demux hnodup (DemuxTag.mem_all tag)]
    cases hsetting : demux.setting tag with
    | none => rfl
    | some setting =>
        rw [Option.map_some, Option.bind_some,
          readSetting_value env hsetting fun ns hns => hfits tag ns (by rw [hsetting, hns])]
        rfl

end

/-! ## The whole document -/

theorem ConfigField.tag_injective : Function.Injective ConfigField.tag := by
  intro f g h
  cases f <;> cases g <;> first | rfl | exact absurd h (by decide)

theorem ConfigField.mem_all (f : ConfigField) : f ∈ ConfigField.all := by
  cases f <;> decide

theorem ServiceField.tag_injective : Function.Injective ServiceField.tag := by
  intro f g h
  cases f <;> cases g <;> first | rfl | exact absurd h (by decide)

theorem ServiceField.mem_all (f : ServiceField) : f ∈ [ServiceField.name, .team] := by
  cases f <;> decide

theorem BandwidthField.mem_all (f : BandwidthField) :
    f ∈ [BandwidthField.statsInterval, .flushInterval] := by
  cases f <;> decide

theorem BandwidthField.tag_injective : Function.Injective BandwidthField.tag := by
  intro f g h
  cases f <;> cases g <;> first | rfl | exact absurd h (by decide)

/-- A field that is left out when its object would be empty. -/
def optField (f : ConfigField) (ms : List Member) : List (ConfigField × Json) :=
  if ms.isEmpty then [] else [(f, objValue ms)]

theorem storesMembers_optField {store : ConfigField → Decoder BridgeConfig} {f : ConfigField}
    {ms : List Member} {old new : BridgeConfig} (hnil : ms = [] → old = new)
    (hcons : ms ≠ [] → Stores (store f) (objValue ms) old new) :
    StoresMembers store (optField f ms) old new := by
  unfold optField
  by_cases h : ms = []
  · rw [h, hnil h]
    exact .nil new
  · rw [if_neg (by simpa using h)]
    exact .cons (hcons h) (.nil new)

variable {durationMsCeil : ℕ → ℕ} {env : ConfigEnv} {topic : String} {broker : BrokerConfig}
  {demux : DemuxConfig} {service : Option (String × String)}
  {statsInterval flushInterval : Option ℕ}

theorem stores_service (env : ConfigEnv) (name team : String) (old : Option ServiceConfig) :
    Stores (pointerDecoder ⟨"", ""⟩ env.decodeService)
      (objValue (pairMembers [("name", name), ("team", team)])) old (some ⟨name, team⟩) := by
  apply Stores.pointer
  have hname : Stores (env.storeService .name) (.str name) (old.getD ⟨"", ""⟩)
      { old.getD ⟨"", ""⟩ with name := name } := rfl
  have hteam : Stores (env.storeService .team) (.str team)
      { old.getD ⟨"", ""⟩ with name := name } ⟨name, team⟩ := rfl
  exact stores_struct env.unknownField _ ServiceField.tag_injective ServiceField.mem_all
    (.cons hname (.cons hteam (.nil _)))

/-- The interval texts that are set. -/
def bandwidthPairs (durationMsCeil : ℕ → ℕ) (statsInterval flushInterval : Option ℕ) :
    List (BandwidthField × Json) :=
  (statsInterval.map fun ns =>
    (BandwidthField.statsInterval, .str (Duration.msText (durationMsCeil ns)))).toList ++
  (flushInterval.map fun ns =>
    (BandwidthField.flushInterval, .str (Duration.msText (durationMsCeil ns)))).toList

theorem bandwidthMembers_eq :
    (bandwidthMembers durationMsCeil statsInterval flushInterval).map (fun m => (m.name, m.value)) =
      (bandwidthPairs durationMsCeil statsInterval flushInterval).map fun m => (m.1.tag, m.2) := by
  cases statsInterval <;> cases flushInterval <;> rfl

theorem stores_bandwidth (env : ConfigEnv) (durationMsCeil : ℕ → ℕ)
    (statsInterval flushInterval : Option ℕ) :
    Stores (pointerDecoder ⟨"", ""⟩ env.decodeBandwidth)
      (objValue (bandwidthMembers durationMsCeil statsInterval flushInterval)) none
      (some ⟨statsInterval.elim "" fun ns => Duration.msText (durationMsCeil ns),
        flushInterval.elim "" fun ns => Duration.msText (durationMsCeil ns)⟩) := by
  apply Stores.pointer
  rw [bandwidthMembers_eq]
  apply stores_struct env.unknownField _ BandwidthField.tag_injective BandwidthField.mem_all
  have hstats : ∀ ns (old : BandwidthConfig), Stores (env.storeBandwidth .statsInterval)
      (.str (Duration.msText (durationMsCeil ns))) old
      { old with statsInterval := Duration.msText (durationMsCeil ns) } := fun _ _ => rfl
  have hflush : ∀ ns (old : BandwidthConfig), Stores (env.storeBandwidth .flushInterval)
      (.str (Duration.msText (durationMsCeil ns))) old
      { old with flushInterval := Duration.msText (durationMsCeil ns) } := fun _ _ => rfl
  cases statsInterval with
  | none =>
      cases flushInterval with
      | none => exact .nil _
      | some flush => exact .cons (hflush flush _) (.nil _)
  | some stats =>
      cases flushInterval with
      | none => exact .cons (hstats stats _) (.nil _)
      | some flush => exact .cons (hstats stats _) (.cons (hflush flush _) (.nil _))

/-- The members of the document by field. -/
def docFields (durationMsCeil : ℕ → ℕ) (topic : String) (broker : BrokerConfig)
    (demux : DemuxConfig) (service : Option (String × String))
    (statsInterval flushInterval : Option ℕ) : List (ConfigField × Json) :=
  [(.adapter, .str "franz"), (.brokers, .str broker.brokers), (.topic, .str topic),
    (.consumerGroup, .str broker.consumerGroup)] ++
  (optField .kafkaConfig (pairMembers broker.dedupedKafkaConfig) ++
    (optField .service (service.elim [] fun s => pairMembers [("name", s.1), ("team", s.2)]) ++
      (optField .demux (demuxMembers durationMsCeil demux) ++
        optField .bandwidth (bandwidthMembers durationMsCeil statsInterval flushInterval))))

theorem docValue_eq :
    docValue durationMsCeil topic broker demux service statsInterval flushInterval =
      .obj ((docFields durationMsCeil topic broker demux service statsInterval flushInterval).map
        fun m => (m.1.tag, m.2)) := by
  have hopt : ∀ (f : ConfigField) (name : String) (ms : List Member), f.tag = name →
      (optObject name ms).map (fun m => (m.name, m.value)) =
        (optField f ms).map fun m => (m.1.tag, m.2) := by
    rintro f name ms rfl
    unfold optObject optField
    split_ifs <;> rfl
  rw [docValue, objValue, docMembers, docFields]
  simp only [List.map_append]
  rw [hopt .kafkaConfig "kafka_config" _ rfl, hopt .service "service" _ rfl,
    hopt .demux "demux" _ rfl, hopt .bandwidth "bandwidth" _ rfl]
  rfl

/-- What the strict decode makes of the document, given what the engine made of its part. -/
def decodedConfig (durationMsCeil : ℕ → ℕ) (topic : String) (broker : BrokerConfig)
    (service : Option (String × String)) (statsInterval flushInterval : Option ℕ)
    (demux : DemuxValues) : BridgeConfig where
  adapter := "franz"
  brokers := broker.brokers
  topic := topic
  consumerGroup := broker.consumerGroup
  kafkaConfig := Assoc.last broker.dedupedKafkaConfig
  service := service.map fun s => ⟨s.1, s.2⟩
  demux := demux
  bandwidth :=
    if statsInterval = none ∧ flushInterval = none then none
    else some ⟨statsInterval.elim "" fun ns => Duration.msText (durationMsCeil ns),
      flushInterval.elim "" fun ns => Duration.msText (durationMsCeil ns)⟩

/-- The configuration before the settings of the engine are stored. -/
def configBeforeDemux (topic : String) (broker : BrokerConfig)
    (service : Option (String × String)) : BridgeConfig where
  adapter := "franz"
  brokers := broker.brokers
  topic := topic
  consumerGroup := broker.consumerGroup
  kafkaConfig := Assoc.last broker.dedupedKafkaConfig
  service := service.map fun s => ⟨s.1, s.2⟩
  demux := fun _ => 0
  bandwidth := none

/-- The members before the settings of the engine, by field. -/
def fieldsBeforeDemux (topic : String) (broker : BrokerConfig)
    (service : Option (String × String)) : List (ConfigField × Json) :=
  [(.adapter, .str "franz"), (.brokers, .str broker.brokers), (.topic, .str topic),
    (.consumerGroup, .str broker.consumerGroup)] ++
  (optField .kafkaConfig (pairMembers broker.dedupedKafkaConfig) ++
    optField .service (service.elim [] fun s => pairMembers [("name", s.1), ("team", s.2)]))

theorem docFields_eq :
    docFields durationMsCeil topic broker demux service statsInterval flushInterval =
      fieldsBeforeDemux topic broker service ++
        (optField .demux (demuxMembers durationMsCeil demux) ++
          optField .bandwidth (bandwidthMembers durationMsCeil statsInterval flushInterval)) := by
  simp only [docFields, fieldsBeforeDemux, List.append_assoc]

theorem stores_beforeDemux :
    StoresMembers env.storeConfig (fieldsBeforeDemux topic broker service) .zero
      (configBeforeDemux topic broker service) := by
  -- the configuration after the four strings, and after the options
  let base : BridgeConfig :=
    { BridgeConfig.zero with
      adapter := "franz", brokers := broker.brokers, topic := topic,
      consumerGroup := broker.consumerGroup }
  let withKafka : BridgeConfig := { base with kafkaConfig := Assoc.last broker.dedupedKafkaConfig }
  have hbase : StoresMembers env.storeConfig
      [(.adapter, .str "franz"), (.brokers, .str broker.brokers), (.topic, .str topic),
        (.consumerGroup, .str broker.consumerGroup)] .zero base :=
    .cons rfl (.cons rfl (.cons rfl (.cons rfl (.nil _))))
  have hkafka : StoresMembers env.storeConfig
      (optField .kafkaConfig (pairMembers broker.dedupedKafkaConfig)) base withKafka := by
    apply storesMembers_optField
    · intro hnil
      have hpairs : broker.dedupedKafkaConfig = [] := List.map_eq_nil_iff.mp hnil
      simp only [withKafka, hpairs]
      rfl
    · intro _
      have hobj : objValue (pairMembers broker.dedupedKafkaConfig) =
          .obj (broker.dedupedKafkaConfig.map fun p => (p.1, .str p.2)) := by
        simp [objValue, pairMembers, strMember]
      have hmap := stores_stringMap (env.typeError "map[string]string") (env.typeError "string")
        broker.dedupedKafkaConfig fun _ => none
      simp only [Option.or_none] at hmap
      rw [hobj]
      exact Stores.field BridgeConfig.kafkaConfig (fun c v => { c with kafkaConfig := v }) base hmap
  have hservice : StoresMembers env.storeConfig
      (optField .service (service.elim [] fun s => pairMembers [("name", s.1), ("team", s.2)]))
      withKafka (configBeforeDemux topic broker service) := by
    apply storesMembers_optField
    · intro hnil
      cases service with
      | none => rfl
      | some s => cases hnil
    · intro hne
      cases service with
      | none => exact absurd rfl hne
      | some s =>
          exact Stores.field BridgeConfig.service (fun c v => { c with service := v }) withKafka
            (stores_service env s.1 s.2 none)
  exact hbase.append (hkafka.append hservice)

/-- The strict decode stores every member of the document. -/
theorem stores_docValue {new : DemuxValues}
    (hnew : demuxMembers durationMsCeil demux ≠ [] →
      Stores env.decodeDemux (objValue (demuxMembers durationMsCeil demux)) (fun _ => 0) new)
    (hunset : demuxMembers durationMsCeil demux = [] → new = fun _ => 0) :
    Stores env.decodeConfig
      (docValue durationMsCeil topic broker demux service statsInterval flushInterval) .zero
      (decodedConfig durationMsCeil topic broker service statsInterval flushInterval new) := by
  rw [docValue_eq, docFields_eq]
  apply stores_struct env.unknownField _ ConfigField.tag_injective ConfigField.mem_all
  let withDemux : BridgeConfig := { configBeforeDemux topic broker service with demux := new }
  have hdemux : StoresMembers env.storeConfig
      (optField .demux (demuxMembers durationMsCeil demux)) (configBeforeDemux topic broker service)
      withDemux := by
    apply storesMembers_optField
    · intro hnil
      simp only [withDemux, hunset hnil]
      rfl
    · intro hne
      exact Stores.field BridgeConfig.demux (fun c v => { c with demux := v })
        (configBeforeDemux topic broker service) (hnew hne)
  have hbandwidth : StoresMembers env.storeConfig
      (optField .bandwidth (bandwidthMembers durationMsCeil statsInterval flushInterval)) withDemux
      (decodedConfig durationMsCeil topic broker service statsInterval flushInterval new) := by
    apply storesMembers_optField
    · intro hnil
      cases statsInterval with
      | none =>
          cases flushInterval with
          | none => rfl
          | some flush => cases hnil
      | some stats => cases hnil
    · intro hne
      have hset : ¬ (statsInterval = none ∧ flushInterval = none) := by
        rintro ⟨rfl, rfl⟩
        exact hne rfl
      have hstores := Stores.field BridgeConfig.bandwidth
        (fun c v => { c with bandwidth := v }) withDemux
        (stores_bandwidth env durationMsCeil statsInterval flushInterval)
      simp only [decodedConfig, if_neg hset]
      exact hstores
  exact stores_beforeDemux.append (hdemux.append hbandwidth)

/-- A member named `demux` is the object of the settings. -/
theorem eq_of_demux_mem {m : Member}
    (hm : m ∈ docMembers durationMsCeil topic broker demux service statsInterval flushInterval)
    (hname : m.name = "demux") : m.value = objValue (demuxMembers durationMsCeil demux) := by
  have hopt : ∀ (name : String) (ms : List Member), m ∈ optObject name ms →
      m.name = name ∧ m.value = objValue ms := by
    intro name ms hmem
    unfold optObject at hmem
    split_ifs at hmem
    · cases hmem
    · obtain rfl := List.mem_singleton.mp hmem
      exact ⟨rfl, rfl⟩
  simp only [docMembers, List.mem_append, List.mem_cons, List.not_mem_nil, or_false] at hm
  rcases hm with (rfl | rfl | rfl | rfl) | hm | hm | hm | hm
  · exact absurd (show "adapter" = "demux" from hname) (by decide)
  · exact absurd (show "brokers" = "demux" from hname) (by decide)
  · exact absurd (show "topic" = "demux" from hname) (by decide)
  · exact absurd (show "consumer_group" = "demux" from hname) (by decide)
  · exact absurd ((hopt _ _ hm).1.symm.trans hname) (by decide)
  · exact absurd ((hopt _ _ hm).1.symm.trans hname) (by decide)
  · exact (hopt _ _ hm).2
  · exact absurd ((hopt _ _ hm).1.symm.trans hname) (by decide)

/-- The key check finds nothing to object to. -/
theorem validateDemuxKeys_configJson (hdemux : env.DecodesByName)
    (horder : ∀ keys, (env.mapOrder keys).Perm keys) :
    env.validateDemuxKeys (Utf8.encode
      (configJson durationMsCeil topic broker demux service statsInterval flushInterval)) =
        none := by
  have hparse := parse_of_parses (parses_configJson durationMsCeil topic broker demux service
    statsInterval flushInterval 9998)
  rw [ConfigEnv.validateDemuxKeys, Utf8.decodeRunes_encode]
  rw [show maxNestingDepth = 9998 + 2 from rfl, hparse]
  simp only [docValue, objValue, ConfigEnv.rawMembers]
  split
  · rfl
  · rename_i raw hlast
    obtain ⟨before, after, hmembers, -⟩ := Assoc.last_eq_some_iff.mp hlast
    have hmem : ("demux", raw) ∈ (docMembers durationMsCeil topic broker demux service statsInterval
        flushInterval).map fun m => (m.name, m.value) := by
      rw [hmembers]
      exact List.mem_append_right _ List.mem_cons_self
    obtain ⟨m, hm, hpair⟩ := List.mem_map.mp hmem
    obtain ⟨hname, hvalue⟩ := Prod.mk.inj hpair
    have hraw : raw = objValue (demuxMembers durationMsCeil demux) := by
      rw [← hvalue]
      exact eq_of_demux_mem hm hname
    subst hraw
    simp only [objValue]
    have hvalid : (env.mapOrder (((demuxMembers durationMsCeil demux).map fun m =>
        (m.name, m.value)).map Prod.fst).dedup).find? (fun key => decide (key ∉ env.demuxTags)) =
        none := by
      rw [List.find?_eq_none]
      intro key hkey
      rw [(horder _).mem_iff, List.mem_dedup, List.map_map] at hkey
      obtain ⟨tag, -, rfl⟩ := List.mem_map.mp
        ((names_demuxMembers durationMsCeil demux).subset hkey)
      simpa using hdemux.tags tag
    rw [hvalid]

/-- The intervals are read back, if they fit and are accepted. -/
theorem parseBandwidth_text (hceil : CeilsMs durationMsCeil)
    (hstats : ∀ ns ∈ statsInterval, MsFits durationMsCeil ns ∧
      env.validateBandwidthInterval ((durationMsCeil ns * 1000000 : ℕ) : ℤ) = none)
    (hflush : ∀ ns ∈ flushInterval, MsFits durationMsCeil ns ∧ 0 < ns) :
    ∃ bw, env.parseBandwidth
        (some ⟨statsInterval.elim "" fun ns => Duration.msText (durationMsCeil ns),
          flushInterval.elim "" fun ns => Duration.msText (durationMsCeil ns)⟩) = .ok bw ∧
      (∀ ns ∈ statsInterval, RoundedUp ns bw.statsInterval) ∧
      (statsInterval = none → bw.statsInterval = 0) ∧
      (∀ ns ∈ flushInterval, RoundedUp ns bw.flushInterval) ∧
      (flushInterval = none → bw.flushInterval = 0) := by
  -- the empty text stands for an unset interval, and no duration is written so
  have hne : ∀ n, Duration.msText n ≠ "" := by
    intro n hempty
    have hlist := Duration.toList_msText n
    rw [hempty] at hlist
    exact absurd hlist.symm (by simp)
  -- the stats interval is checked by the engine
  obtain ⟨stats, hparseStats, hstatsSome, hstatsNone⟩ : ∃ stats : ℤ,
      env.parseStatsInterval (statsInterval.elim "" fun ns => Duration.msText (durationMsCeil ns)) =
        .ok stats ∧ (∀ ns ∈ statsInterval, RoundedUp ns stats) ∧
        (statsInterval = none → stats = 0) := by
    cases statsInterval with
    | none => exact ⟨0, rfl, by simp, fun _ => rfl⟩
    | some ns =>
        obtain ⟨hfits, hvalid⟩ := hstats ns rfl
        refine ⟨((durationMsCeil ns * 1000000 : ℕ) : ℤ), ?_, fun ns' hns' => ?_,
          fun h => by cases h⟩
        · rw [Option.elim_some, ConfigEnv.parseStatsInterval, if_neg (hne _),
            ConfigEnv.parseDuration, Duration.parse_msText hfits, Except.mapError]
          simp only [hvalid]
        · obtain rfl := Option.some_inj.mp hns'
          exact hceil ns
  -- the flush interval has to be positive
  obtain ⟨flush, hparseFlush, hflushSome, hflushNone⟩ : ∃ flush : ℤ,
      env.parseFlushInterval (flushInterval.elim "" fun ns => Duration.msText (durationMsCeil ns)) =
        .ok flush ∧ (∀ ns ∈ flushInterval, RoundedUp ns flush) ∧
        (flushInterval = none → flush = 0) := by
    cases flushInterval with
    | none => exact ⟨0, rfl, by simp, fun _ => rfl⟩
    | some ns =>
        obtain ⟨hfits, hpos⟩ := hflush ns rfl
        refine ⟨((durationMsCeil ns * 1000000 : ℕ) : ℤ), ?_, fun ns' hns' => ?_,
          fun h => by cases h⟩
        · have hle := (hceil ns).2.1
          rw [Option.elim_some, ConfigEnv.parseFlushInterval, if_neg (hne _),
            ConfigEnv.parseDuration, Duration.parse_msText hfits]
          show (if ((durationMsCeil ns * 1000000 : ℕ) : ℤ) ≤ 0 then _ else _) = _
          rw [if_neg (by omega)]
        · obtain rfl := Option.some_inj.mp hns'
          exact hceil ns
  refine ⟨⟨stats, flush⟩, ?_, hstatsSome, hstatsNone, hflushSome, hflushNone⟩
  rw [ConfigEnv.parseBandwidth, hparseStats]
  show (env.parseFlushInterval _).map _ = _
  rw [hparseFlush]
  rfl

theorem carries_decodedConfig (hceil : CeilsMs durationMsCeil) {new : DemuxValues}
    (hvalues : ∀ tag : DemuxTag,
      new tag.name = ((demux.setting tag).map (Setting.goValue durationMsCeil)).getD 0) :
    Carries env durationMsCeil topic broker demux service statsInterval flushInterval
      (decodedConfig durationMsCeil topic broker service statsInterval flushInterval new) where
  adapter := rfl
  brokers := rfl
  topic := rfl
  consumerGroup := rfl
  kafkaConfig := by
    intro key value
    show Assoc.last broker.dedupedKafkaConfig key = some value ↔ _
    rw [last_dedupedKafkaConfig]
    exact Assoc.last_eq_some_iff
  kafkaConfig_none := by
    intro key
    show Assoc.last broker.dedupedKafkaConfig key = none ↔ _
    rw [last_dedupedKafkaConfig]
    exact Assoc.last_eq_none_iff
  service := rfl
  count := by
    intro tag n hsetting
    show new tag.name = _
    rw [hvalues, hsetting]
    rfl
  duration := by
    intro tag ns hsetting
    show RoundedUp ns (new tag.name)
    rw [hvalues, hsetting]
    exact hceil ns
  unset := by
    intro tag hsetting
    show new tag.name = 0
    rw [hvalues, hsetting]
    rfl
  bandwidth_text := rfl
  bandwidth := by
    intro hstats hflush
    by_cases hset : statsInterval = none ∧ flushInterval = none
    · obtain ⟨rfl, rfl⟩ := hset
      exact ⟨⟨0, 0⟩, rfl, by simp, fun _ => rfl, by simp, fun _ => rfl⟩
    · simp only [decodedConfig, if_neg hset]
      exact parseBandwidth_text hceil hstats hflush

variable (topic broker service statsInterval flushInterval) in
/-- The document parsed: a missing identity is the only objection, and what is decoded holds
what was configured. -/
theorem parseBridgeConfig_configJson (hceil : CeilsMs durationMsCeil) (hdemux : env.DecodesByName)
    (horder : ∀ keys, (env.mapOrder keys).Perm keys)
    (hfits : ∀ tag ns, demux.setting tag = some (.duration ns) → MsFits durationMsCeil ns) :
    ∃ cfg, Carries env durationMsCeil topic broker demux service statsInterval flushInterval cfg ∧
      env.parseBridgeConfig (Utf8.encode
        (configJson durationMsCeil topic broker demux service statsInterval flushInterval)) =
      if topic = "" ∨ broker.brokers = "" ∨ broker.consumerGroup = "" then
        .error ⟨.missingConfig,
          "missing required config: brokers, topic, and consumer_group must all be set"⟩
      else .ok cfg := by
  obtain ⟨new, hnew, hunset, hvalues⟩ : ∃ new : DemuxValues,
      (demuxMembers durationMsCeil demux ≠ [] →
        Stores env.decodeDemux (objValue (demuxMembers durationMsCeil demux)) (fun _ => 0) new) ∧
      (demuxMembers durationMsCeil demux = [] → new = fun _ => 0) ∧
      ∀ tag : DemuxTag,
        new tag.name = ((demux.setting tag).map (Setting.goValue durationMsCeil)).getD 0 := by
    by_cases hnil : demuxMembers durationMsCeil demux = []
    · refine ⟨fun _ => 0, fun hne => absurd hnil hne, fun _ => rfl, fun tag => ?_⟩
      rw [setting_of_demuxMembers_nil hnil tag]
      rfl
    · obtain ⟨new, hnew, hvalues⟩ := exists_unmarshalDemux hdemux hfits
      exact ⟨new, fun _ => hnew, fun h => absurd h hnil, hvalues⟩
  have hparse := parseFirst_of_parses (parses_configJson durationMsCeil topic broker demux service
    statsInterval flushInterval 9998)
  have hstores : Stores env.decodeConfig
      (docValue durationMsCeil topic broker demux service statsInterval flushInterval) .zero
      (decodedConfig durationMsCeil topic broker service statsInterval flushInterval new) :=
    stores_docValue hnew hunset
  refine ⟨decodedConfig durationMsCeil topic broker service statsInterval flushInterval new,
    carries_decodedConfig hceil hvalues, ?_⟩
  rw [ConfigEnv.parseBridgeConfig, Utf8.decodeRunes_encode]
  rw [show maxNestingDepth = 9998 + 2 from rfl, hparse]
  simp only
  rw [hstores]
  simp only
  rw [validateDemuxKeys_configJson hdemux horder]
  rfl

/-- The configuration round trip.  The document is a well-formed object without duplicate
names or bytes below the space.  `parseBridgeConfig` objects to it only for a missing
identity, or for a duration that does not fit in 64 bits of nanoseconds; otherwise it reads
exactly what was configured. -/
theorem configJson_roundTrip (env : ConfigEnv) (hdemux : env.DecodesByName)
    (horder : ∀ keys, (env.mapOrder keys).Perm keys) (durationMsCeil : ℕ → ℕ)
    (hceil : CeilsMs durationMsCeil) (topic : String) (broker : BrokerConfig) (demux : DemuxConfig)
    (service : Option (String × String)) (statsInterval flushInterval : Option ℕ) :
    let text := configJson durationMsCeil topic broker demux service statsInterval flushInterval
    (∃ members, Json.parse maxNestingDepth text.toList = some (.obj members) ∧
      Distinct (.obj members)) ∧
    (∀ b ∈ Utf8.encode text, 0x20 ≤ b) ∧
    (∀ err, env.parseBridgeConfig (Utf8.encode text) = .error err →
      (err.code = .missingConfig ∧
        (topic = "" ∨ broker.brokers = "" ∨ broker.consumerGroup = "")) ∨
      ∃ tag ns, demux.setting tag = some (.duration ns) ∧ ¬ MsFits durationMsCeil ns) ∧
    (topic ≠ "" → broker.brokers ≠ "" → broker.consumerGroup ≠ "" →
      (∀ tag ns, demux.setting tag = some (.duration ns) → MsFits durationMsCeil ns) →
      ∃ cfg, env.parseBridgeConfig (Utf8.encode text) = .ok cfg ∧
        Carries env durationMsCeil topic broker demux service statsInterval flushInterval cfg) := by
  intro text
  refine ⟨⟨_, ?_, distinct_docValue durationMsCeil topic broker demux service statsInterval
    flushInterval⟩, ?_, ?_, ?_⟩
  · exact parse_of_parses (parses_configJson durationMsCeil topic broker demux service
      statsInterval flushInterval 9998)
  · exact Utf8.space_le_of_mem_encode (space_le_configJson durationMsCeil topic broker demux service
      statsInterval flushInterval)
  · intro err herr
    by_cases hfits : ∀ tag ns, demux.setting tag = some (.duration ns) → MsFits durationMsCeil ns
    · obtain ⟨cfg, -, hparse⟩ := parseBridgeConfig_configJson topic broker service statsInterval
        flushInterval hceil hdemux horder hfits
      rw [hparse] at herr
      split_ifs at herr with hmissing
      obtain rfl := Except.error.inj herr
      exact .inl ⟨rfl, hmissing⟩
    · push Not at hfits
      obtain ⟨tag, ns, hsetting, hlarge⟩ := hfits
      exact .inr ⟨tag, ns, hsetting, hlarge⟩
  · intro htopic hbrokers hgroup hfits
    obtain ⟨cfg, hcarries, hparse⟩ := parseBridgeConfig_configJson topic broker service
      statsInterval flushInterval hceil hdemux horder hfits
    refine ⟨cfg, ?_, hcarries⟩
    rw [hparse, if_neg (by simp [htopic, hbrokers, hgroup])]

/-! ## An engine that decodes by name -/

/-- Library functions whose texts do not matter here. -/
def plainEnv : ConfigEnv where
  demuxTags := DemuxTag.all.map DemuxTag.name
  unmarshalDemux := fun _ old => .ok old
  validateBandwidthInterval := fun d =>
    if 1000000000 ≤ d ∧ d ≤ 43200000000000 then none else some "bandwidth interval out of range"
  durationFraction := fun f digits ns => f * ns / 10 ^ digits
  timeQuote := fun s => "\"" ++ s ++ "\""
  quote := fun s => "\"" ++ s ++ "\""
  syntaxError := fun _ => "invalid character"
  typeError := fun goType _ => "json: cannot unmarshal value into Go value of type " ++ goType
  mapOrder := id

/-- The tag with a name. -/
def tagNamed (name : String) : Option DemuxTag := DemuxTag.all.find? fun tag => tag.name == name

/-- The value of a setting in an object, or what is there. -/
def memberValue (members : List (String × Json)) (old : DemuxValues) (name : String) : ℤ :=
  match tagNamed name with
  | some tag => ((Assoc.last members name).bind (plainEnv.readSetting tag)).getD (old name)
  | none => old name

/-- Settings are read by name, other members ignored. -/
def unmarshalByName : Json → DemuxValues → Except String DemuxValues
  | .obj members, old =>
      if members.all fun m =>
          (tagNamed m.1).all fun tag => (plainEnv.readSetting tag m.2).isSome then
        .ok (memberValue members old)
      else .error "invalid demux setting"
  | .null, old => .ok old
  | _, _ => .error "invalid demux configuration"

def byNameEnv : ConfigEnv := { plainEnv with unmarshalDemux := unmarshalByName }

theorem tagNamed_name (tag : DemuxTag) : tagNamed tag.name = some tag := by
  cases tag <;> decide

theorem decodesByName_byNameEnv : byNameEnv.DecodesByName where
  tags tag := List.mem_map_of_mem (DemuxTag.mem_all tag)
  decode := by
    intro members old _ hread
    refine ⟨memberValue (members.map fun m => (m.1.name, m.2)) old, ?_, fun tag => ?_⟩
    · show unmarshalByName (.obj (members.map fun m => (m.1.name, m.2))) old = _
      rw [unmarshalByName, if_pos]
      rw [List.all_eq_true]
      intro m hm
      obtain ⟨pair, hpair, rfl⟩ := List.mem_map.mp hm
      have hsome : (plainEnv.readSetting pair.1 pair.2).isSome := hread pair hpair
      simpa [tagNamed_name] using hsome
    · rw [memberValue, tagNamed_name, Assoc.last_map_key DemuxTag.name_injective]
      rfl

/-- Rounding up. -/
def msCeil (ns : ℕ) : ℕ := (ns + 999999) / 1000000

theorem ceilsMs_msCeil : CeilsMs msCeil := by
  intro ns
  unfold RoundedUp msCeil
  omega

/-- Options in which a key is repeated, and a value has characters to escape. -/
def ordersBroker : BrokerConfig where
  brokers := "b1:9092,b2:9092"
  consumerGroup := "grp"
  kafkaConfig := [("client.id", "a"), ("client.rack", "r\n\u0000"), ("client.id", "b")]

/-- A duration with a fraction of a millisecond. -/
def ordersDemux : DemuxConfig where
  concurrentKeys := some 500
  perKeyBufferLen := none
  pollTimeout := some 150000500
  autoCommitInterval := none
  drainTimeout := none
  awaitAssignmentsTimeout := none
  commitIngestChannelLen := none
  commitPartitionSliceLen := none
  queryTimeout := none
  acquireWorkerTimeoutCircuitBreaker := none
  workerShardsCount := none
  rebalancePausePollingTimeout := none
  acquireCommitGuardTimeout := none

theorem configJson_roundTrip_orders :
    ∃ cfg, byNameEnv.parseBridgeConfig (Utf8.encode (configJson msCeil "orders" ordersBroker
        ordersDemux (some ("svc", "team")) (some 5000000000) none)) = .ok cfg ∧
      Carries byNameEnv msCeil "orders" ordersBroker ordersDemux (some ("svc", "team"))
        (some 5000000000) none cfg := by
  have h := configJson_roundTrip byNameEnv decodesByName_byNameEnv (fun keys => .refl keys) msCeil
    ceilsMs_msCeil "orders" ordersBroker ordersDemux (some ("svc", "team")) (some 5000000000) none
  refine h.2.2.2 (by decide) (by decide) (by decide) ?_
  intro tag ns hsetting
  cases tag <;> simp [DemuxConfig.setting, ordersDemux] at hsetting
  subst hsetting
  unfold MsFits
  decide

end LlingrKafka.Config
