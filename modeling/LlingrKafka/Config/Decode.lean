import LlingrKafka.Bridge.Consumer
import LlingrKafka.Bridge.Error
import LlingrKafka.Foundations.Checks
import LlingrKafka.Foundations.Duration
import LlingrKafka.Foundations.JsonDecode
import LlingrKafka.Foundations.Text
import LlingrKafka.Foundations.Utf8
import Mathlib.Data.List.Dedup

/-!
# Reading the configuration document

`parseBridgeConfig`, `validateDemuxKeys` and `parseBandwidth` (`bridge/config.go`).  The
document is read twice: the strict decode takes its first value and stores members into
fields by name up to case, and the key check takes the whole text and looks only at the
last member spelled `demux`.

`ConfigEnv` is what these functions call outside the repository: the engine's
`config.DemuxConfig` with its own `UnmarshalJSON`, its interval check, and the texts of
library errors.  A `config.DemuxConfig` is the values of its settings by tag.
-/

namespace LlingrKafka.Config

open Bridge JsonDecode Text

/-- The values of a `config.DemuxConfig` by tag: counts, and nanoseconds. -/
abbrev DemuxValues := String → ℤ

/-- The code outside the repository. -/
structure ConfigEnv where
  /-- The JSON tags of `config.DemuxConfig`, by reflection. -/
  demuxTags : List String
  /-- `(*config.DemuxConfig).UnmarshalJSON`. -/
  unmarshalDemux : Json → DemuxValues → Except String DemuxValues
  /-- `nexus.ValidateBandwidthInterval`. -/
  validateBandwidthInterval : ℤ → Option String
  /-- What a fraction of a duration unit amounts to, see `Duration.parseTerm`. -/
  durationFraction : ℕ → ℕ → ℕ → ℕ
  /-- The quoting of the `time` package, and `%q`. -/
  timeQuote : String → String
  quote : String → String
  /-- The errors of `encoding/json` for a malformed text, and for a value of the wrong
  type. -/
  syntaxError : Utf8.Bytes → String
  typeError : String → Json → String
  /-- The order a range over a map visits its keys in. -/
  mapOrder : List String → List String

/-- `serviceConfig`. -/
structure ServiceConfig where
  name : String
  team : String
  deriving DecidableEq, Repr

/-- `bandwidthConfig`. -/
structure BandwidthConfig where
  statsInterval : String
  flushInterval : String
  deriving DecidableEq, Repr

/-- `bridgeConfig`. -/
structure BridgeConfig where
  adapter : String
  brokers : String
  topic : String
  consumerGroup : String
  kafkaConfig : String → Option String
  service : Option ServiceConfig
  demux : DemuxValues
  bandwidth : Option BandwidthConfig

/-- The zero value. -/
def BridgeConfig.zero : BridgeConfig where
  adapter := ""
  brokers := ""
  topic := ""
  consumerGroup := ""
  kafkaConfig := fun _ => none
  service := none
  demux := fun _ => 0
  bandwidth := none

inductive ServiceField
  | name
  | team
  deriving DecidableEq, Repr

def ServiceField.tag : ServiceField → String
  | name => "name"
  | team => "team"

inductive BandwidthField
  | statsInterval
  | flushInterval
  deriving DecidableEq, Repr

def BandwidthField.tag : BandwidthField → String
  | statsInterval => "statsInterval"
  | flushInterval => "flushInterval"

inductive ConfigField
  | adapter
  | brokers
  | topic
  | consumerGroup
  | kafkaConfig
  | service
  | demux
  | bandwidth
  deriving DecidableEq, Repr

def ConfigField.tag : ConfigField → String
  | adapter => "adapter"
  | brokers => "brokers"
  | topic => "topic"
  | consumerGroup => "consumer_group"
  | kafkaConfig => "kafka_config"
  | service => "service"
  | demux => "demux"
  | bandwidth => "bandwidth"

def ConfigField.all : List ConfigField :=
  [adapter, brokers, topic, consumerGroup, kafkaConfig, service, demux, bandwidth]

/-- The scanner's bound on nesting. -/
def maxNestingDepth : ℕ := 10000

def adapterFranz : String := "franz"

namespace ConfigEnv

variable (env : ConfigEnv)

def unknownField (key : String) : String := "json: unknown field " ++ env.quote key

def stringField : Decoder String := stringDecoder (env.typeError "string")

def storeService : ServiceField → Decoder ServiceConfig
  | .name => fieldDecoder ServiceConfig.name (fun c v => { c with name := v }) env.stringField
  | .team => fieldDecoder ServiceConfig.team (fun c v => { c with team := v }) env.stringField

def decodeService : Decoder ServiceConfig :=
  structDecoder [.name, .team] ServiceField.tag env.storeService env.unknownField
    (env.typeError "main.serviceConfig")

def storeBandwidth : BandwidthField → Decoder BandwidthConfig
  | .statsInterval =>
      fieldDecoder BandwidthConfig.statsInterval (fun c v => { c with statsInterval := v })
        env.stringField
  | .flushInterval =>
      fieldDecoder BandwidthConfig.flushInterval (fun c v => { c with flushInterval := v })
        env.stringField

def decodeBandwidth : Decoder BandwidthConfig :=
  structDecoder [.statsInterval, .flushInterval] BandwidthField.tag env.storeBandwidth
    env.unknownField (env.typeError "main.bandwidthConfig")

/-- The custom decoder: its error ends the decoding. -/
def decodeDemux : Decoder DemuxValues :=
  fun j old => (env.unmarshalDemux j old).map fun new => (new, none)

def storeConfig : ConfigField → Decoder BridgeConfig
  | .adapter => fieldDecoder BridgeConfig.adapter (fun c v => { c with adapter := v })
      env.stringField
  | .brokers => fieldDecoder BridgeConfig.brokers (fun c v => { c with brokers := v })
      env.stringField
  | .topic => fieldDecoder BridgeConfig.topic (fun c v => { c with topic := v })
      env.stringField
  | .consumerGroup => fieldDecoder BridgeConfig.consumerGroup
      (fun c v => { c with consumerGroup := v }) env.stringField
  | .kafkaConfig => fieldDecoder BridgeConfig.kafkaConfig (fun c v => { c with kafkaConfig := v })
      (stringMapDecoder (env.typeError "map[string]string") (env.typeError "string"))
  | .service => fieldDecoder BridgeConfig.service (fun c v => { c with service := v })
      (pointerDecoder ⟨"", ""⟩ env.decodeService)
  | .demux => fieldDecoder BridgeConfig.demux (fun c v => { c with demux := v }) env.decodeDemux
  | .bandwidth => fieldDecoder BridgeConfig.bandwidth (fun c v => { c with bandwidth := v })
      (pointerDecoder ⟨"", ""⟩ env.decodeBandwidth)

def decodeConfig : Decoder BridgeConfig :=
  structDecoder ConfigField.all ConfigField.tag env.storeConfig env.unknownField
    (env.typeError "main.bridgeConfig")

/-- `json.Unmarshal` into a map of raw messages. -/
def rawMembers : Json → Except String (List (String × Json))
  | .obj members => .ok members
  | .null => .ok []
  | j => .error (env.typeError "map[string]json.RawMessage" j)

/-- `sortedKeys` of the tag set, joined. -/
def sortedTags : String :=
  ", ".intercalate (env.demuxTags.dedup.mergeSort fun a b => decide (a ≤ b))

/-- `validateDemuxKeys`. -/
def validateDemuxKeys (data : Utf8.Bytes) : Option BridgeError :=
  match Json.parse maxNestingDepth (Utf8.decodeRunes data) with
  | none => some ⟨.invalidJSON, "invalid configuration JSON: " ++ env.syntaxError data⟩
  | some doc =>
      match env.rawMembers doc with
      | .error e => some ⟨.invalidJSON, "invalid configuration JSON: " ++ e⟩
      | .ok members =>
          match Assoc.last members "demux" with
          | none => none
          | some raw =>
              match env.rawMembers raw with
              | .error e => some ⟨.invalidJSON, "invalid demux configuration JSON: " ++ e⟩
              | .ok demuxObj =>
                  match (env.mapOrder (demuxObj.map Prod.fst).dedup).find?
                      fun key => decide (key ∉ env.demuxTags) with
                  | none => none
                  | some key =>
                      some ⟨.badOption, "unknown demux option " ++ env.quote key ++ " (valid: " ++
                        env.sortedTags ++ ")"⟩

/-- `parseBridgeConfig`. -/
def parseBridgeConfig (data : Utf8.Bytes) : Except BridgeError BridgeConfig :=
  match Json.parseFirst maxNestingDepth (Utf8.decodeRunes data) with
  | none => .error ⟨.invalidJSON, "invalid configuration JSON: " ++ env.syntaxError data⟩
  | some (doc, _) =>
      match env.decodeConfig doc .zero with
      | .error e => .error ⟨.invalidJSON, "invalid configuration JSON: " ++ e⟩
      | .ok (_, some e) => .error ⟨.invalidJSON, "invalid configuration JSON: " ++ e⟩
      | .ok (cfg, none) =>
          match env.validateDemuxKeys data with
          | some berr => .error berr
          | none =>
              if cfg.topic = "" ∨ cfg.brokers = "" ∨ cfg.consumerGroup = "" then
                .error ⟨.missingConfig,
                  "missing required config: brokers, topic, and consumer_group must all be set"⟩
              else if cfg.adapter = "" ∨ cfg.adapter = adapterFranz then .ok cfg
              else
                .error ⟨.badOption, "unknown adapter " ++ env.quote cfg.adapter ++
                  " (supported: " ++ env.quote adapterFranz ++ ")"⟩

/-- `time.ParseDuration` with its message. -/
def parseDuration (s : String) : Except String ℤ :=
  (Duration.parse env.durationFraction s).mapError (Duration.ParseError.text env.timeQuote s)

/-- The `statsInterval` of `parseBandwidth`. -/
def parseStatsInterval (s : String) : Except BridgeError ℤ :=
  if s = "" then .ok 0
  else
    match env.parseDuration s with
    | .error e =>
        .error ⟨.badOption, "invalid bandwidth statsInterval " ++ env.quote s ++ ": " ++ e⟩
    | .ok d =>
        match env.validateBandwidthInterval d with
        | some e =>
            .error ⟨.badOption, "invalid bandwidth statsInterval " ++ env.quote s ++ ": " ++ e⟩
        | none => .ok d

/-- The `flushInterval` of `parseBandwidth`. -/
def parseFlushInterval (s : String) : Except BridgeError ℤ :=
  if s = "" then .ok 0
  else
    match env.parseDuration s with
    | .error e =>
        .error ⟨.badOption, "invalid bandwidth flushInterval " ++ env.quote s ++ ": " ++ e⟩
    | .ok d =>
        if d ≤ 0 then
          .error ⟨.badOption, "invalid bandwidth flushInterval " ++ env.quote s ++
            ": must be positive"⟩
        else .ok d

/-- `parseBandwidth`. -/
def parseBandwidth (cfg : Option BandwidthConfig) : Except BridgeError ParsedBandwidth :=
  match cfg with
  | none => .ok ⟨0, 0⟩
  | some cfg =>
      (env.parseStatsInterval cfg.statsInterval).bind fun stats =>
        (env.parseFlushInterval cfg.flushInterval).map fun flush => ⟨stats, flush⟩

/-! ## Every error has a text -/

variable {env}

theorem validateDemuxKeys_msg {data : Utf8.Bytes} {e : BridgeError}
    (h : env.validateDemuxKeys data = some e) : e.msg ≠ "" := by
  unfold validateDemuxKeys at h
  repeat' split at h
  all_goals cases h
  all_goals exact append_ne_empty (.inl (ne_of_beq_false rfl))

theorem parseBridgeConfig_msg {data : Utf8.Bytes} {e : BridgeError}
    (h : env.parseBridgeConfig data = .error e) : e.msg ≠ "" := by
  unfold parseBridgeConfig at h
  split at h
  · cases h
    exact append_ne_empty (.inl (ne_of_beq_false rfl))
  · split at h
    · cases h
      exact append_ne_empty (.inl (ne_of_beq_false rfl))
    · cases h
      exact append_ne_empty (.inl (ne_of_beq_false rfl))
    · split at h
      · obtain rfl := Except.error.inj h
        exact validateDemuxKeys_msg ‹_›
      · split_ifs at h
        · cases h
          exact ne_of_beq_false rfl
        · cases h
          exact append_ne_empty (.inr (ne_of_beq_false rfl))

theorem parseBandwidth_msg {cfg : Option BandwidthConfig} {e : BridgeError}
    (h : env.parseBandwidth cfg = .error e) : e.msg ≠ "" := by
  have hstats : ∀ {s : String} {e : BridgeError}, env.parseStatsInterval s = .error e →
      e.msg ≠ "" := by
    intro s e h
    unfold parseStatsInterval at h
    split_ifs at h
    split at h
    · cases h
      exact append_ne_empty (.inl (append_ne_empty (.inr (ne_of_beq_false rfl))))
    · split at h
      · cases h
        exact append_ne_empty (.inl (append_ne_empty (.inr (ne_of_beq_false rfl))))
      · cases h
  have hflush : ∀ {s : String} {e : BridgeError}, env.parseFlushInterval s = .error e →
      e.msg ≠ "" := by
    intro s e h
    unfold parseFlushInterval at h
    split_ifs at h
    split at h
    · cases h
      exact append_ne_empty (.inl (append_ne_empty (.inr (ne_of_beq_false rfl))))
    · split_ifs at h
      cases h
      exact append_ne_empty (.inr (ne_of_beq_false rfl))
  unfold parseBandwidth at h
  split at h
  · cases h
  · rename_i cfg
    cases hparsed : env.parseStatsInterval cfg.statsInterval with
    | error e' =>
        rw [hparsed] at h
        cases h
        exact hstats hparsed
    | ok stats =>
        rw [hparsed] at h
        exact hflush (Checks.map_eq_error.mp h)

end ConfigEnv

end LlingrKafka.Config
