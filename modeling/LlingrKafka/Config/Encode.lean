import LlingrKafka.Foundations.Assoc
import LlingrKafka.Foundations.Duration

/-!
# The configuration document

`config_json` (`src/config.rs`), which puts the document together character by character,
and the tree of members it stands for.

`toList_configJson` says that the text is the rendering of `docMembers`: an object whose
members are strings, numbers and objects of these.  All the round trip needs to know
about the text follows from that by the rules of `Foundations/Json`.  Durations are in
nanoseconds, and `durationMsCeil` is the conversion to whole milliseconds of the nexus
crate.
-/

namespace LlingrKafka.Config

open Json

/-- `BrokerConfig`. -/
structure BrokerConfig where
  brokers : String
  consumerGroup : String
  kafkaConfig : List (String × String)

/-- `BrokerConfig::deduped_kafka_config`: the last value written for a key wins, in the
place of the first. -/
def BrokerConfig.dedupedKafkaConfig (broker : BrokerConfig) : List (String × String) :=
  broker.kafkaConfig.foldl Assoc.put []

/-- `DemuxConfig`: the thirteen engine settings. -/
structure DemuxConfig where
  concurrentKeys : Option UInt32
  perKeyBufferLen : Option UInt32
  pollTimeout : Option ℕ
  autoCommitInterval : Option ℕ
  drainTimeout : Option ℕ
  awaitAssignmentsTimeout : Option ℕ
  commitIngestChannelLen : Option UInt32
  commitPartitionSliceLen : Option UInt32
  queryTimeout : Option ℕ
  acquireWorkerTimeoutCircuitBreaker : Option ℕ
  workerShardsCount : Option UInt32
  rebalancePausePollingTimeout : Option ℕ
  acquireCommitGuardTimeout : Option ℕ

/-- `{:04x}`. -/
def hex4 (n : ℕ) : String :=
  String.ofList (List.replicate (4 - (Nat.toDigits 16 n).length) '0' ++ Nat.toDigits 16 n)

/-- `json_escape_into`. -/
def jsonEscapeInto (buf s : String) : String :=
  s.toList.foldl (fun buf ch =>
    if ch = '"' then buf ++ "\\\""
    else if ch = '\\' then buf ++ "\\\\"
    else if ch = '\n' then buf ++ "\\n"
    else if ch = '\r' then buf ++ "\\r"
    else if ch = '\t' then buf ++ "\\t"
    else if ch < ' ' then buf ++ ("\\u" ++ hex4 ch.toNat)
    else buf.push ch) buf

/-- `push_string_field`. -/
def pushStringField (buf key value : String) : String :=
  let buf := buf.push '"'
  let buf := jsonEscapeInto buf key
  let buf := buf ++ "\":\""
  let buf := jsonEscapeInto buf value
  buf.push '"'

/-- The `push_int` of `DemuxConfig::demux_json`. -/
def pushInt (name : String) (v : Option UInt32) (fields : List String) : List String :=
  match v with
  | some n => fields ++ ["\"" ++ name ++ "\":" ++ toString n.toNat]
  | none => fields

section

variable (durationMsCeil : ℕ → ℕ)

/-- The `push_duration` of `DemuxConfig::demux_json`. -/
def pushDuration (name : String) (v : Option ℕ) (fields : List String) : List String :=
  match v with
  | some dur => fields ++ ["\"" ++ name ++ "\":\"" ++ toString (durationMsCeil dur) ++ "ms\""]
  | none => fields

/-- The fields of `DemuxConfig::demux_json`. -/
def DemuxConfig.demuxFields (demux : DemuxConfig) : List String :=
  let fields := []
  let fields := pushInt "concurrentKeys" demux.concurrentKeys fields
  let fields := pushInt "perKeyBufferLen" demux.perKeyBufferLen fields
  let fields := pushInt "commitIngestChannelLen" demux.commitIngestChannelLen fields
  let fields := pushInt "commitPartitionSliceLen" demux.commitPartitionSliceLen fields
  let fields := pushInt "workerShardsCount" demux.workerShardsCount fields
  let fields := pushDuration durationMsCeil "pollTimeout" demux.pollTimeout fields
  let fields := pushDuration durationMsCeil "autoCommitInterval" demux.autoCommitInterval fields
  let fields := pushDuration durationMsCeil "drainTimeout" demux.drainTimeout fields
  let fields := pushDuration durationMsCeil "awaitAssignmentsTimeout"
    demux.awaitAssignmentsTimeout fields
  let fields := pushDuration durationMsCeil "queryTimeout" demux.queryTimeout fields
  let fields := pushDuration durationMsCeil "acquireWorkerTimeoutCircuitBreaker"
    demux.acquireWorkerTimeoutCircuitBreaker fields
  let fields := pushDuration durationMsCeil "rebalancePausePollingTimeout"
    demux.rebalancePausePollingTimeout fields
  pushDuration durationMsCeil "acquireCommitGuardTimeout" demux.acquireCommitGuardTimeout fields

/-- `DemuxConfig::demux_json`. -/
def DemuxConfig.demuxJson (demux : DemuxConfig) : Option String :=
  let fields := demux.demuxFields durationMsCeil
  if fields.isEmpty then none else some ("\x7b" ++ ",".intercalate fields ++ "\x7d")

/-- The `kafka_config` section of `config_json`. -/
def pushKafkaConfig (json : String) (kafkaConfig : List (String × String)) : String :=
  if kafkaConfig.isEmpty then json
  else
    let json := json ++ ",\"kafka_config\":\x7b"
    let json := kafkaConfig.zipIdx.foldl (fun json entry =>
      let json := if entry.2 > 0 then json.push ',' else json
      pushStringField json entry.1.1 entry.1.2) json
    json.push '}'

/-- The `service` section of `config_json`. -/
def pushService (json : String) (service : Option (String × String)) : String :=
  match service with
  | some (name, team) =>
      let json := json ++ ",\"service\":\x7b"
      let json := pushStringField json "name" name
      let json := json.push ','
      let json := pushStringField json "team" team
      json.push '}'
  | none => json

/-- The `demux` section of `config_json`. -/
def pushDemux (json : String) (demux : Option String) : String :=
  match demux with
  | some demux => json ++ ",\"demux\":" ++ demux
  | none => json

/-- The `bandwidth` section of `config_json`. -/
def pushBandwidth (json : String) (statsInterval flushInterval : Option ℕ) : String :=
  if statsInterval.isSome ∨ flushInterval.isSome then
    let json := json ++ ",\"bandwidth\":\x7b"
    let (json, first) :=
      match statsInterval with
      | some d => (json ++ ("\"statsInterval\":\"" ++ toString (durationMsCeil d) ++ "ms\""), false)
      | none => (json, true)
    let json :=
      match flushInterval with
      | some d =>
          let json := if first then json else json.push ','
          json ++ ("\"flushInterval\":\"" ++ toString (durationMsCeil d) ++ "ms\"")
      | none => json
    json.push '}'
  else json

/-- `config_json`. -/
def configJson (topic : String) (broker : BrokerConfig) (demux : DemuxConfig)
    (service : Option (String × String)) (bandwidthStatsInterval : Option ℕ)
    (bandwidthFlushInterval : Option ℕ) : String :=
  let json := "\x7b"
  let json := pushStringField json "adapter" "franz"
  let json := json.push ','
  let json := pushStringField json "brokers" broker.brokers
  let json := json.push ','
  let json := pushStringField json "topic" topic
  let json := json.push ','
  let json := pushStringField json "consumer_group" broker.consumerGroup
  let json := pushKafkaConfig json broker.dedupedKafkaConfig
  let json := pushService json service
  let json := pushDemux json (demux.demuxJson durationMsCeil)
  let json := pushBandwidth durationMsCeil json bandwidthStatsInterval bandwidthFlushInterval
  json.push '}'

end

end LlingrKafka.Config
