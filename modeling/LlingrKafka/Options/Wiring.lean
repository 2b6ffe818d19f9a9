import LlingrKafka.Bridge.Consumer
import LlingrKafka.Options.Guard
import LlingrKafka.Options.Settings

/-!
# From the document to the adapter

The bytes `llingr_init` is given, parsed and translated into the adapter that
`CreateConsumer` is called on: `parseBridgeConfig`, the stages of `buildFranzConsumer`
(`bridge/adapter_franz.go`) and its `newBridgeBuilder` (`bridge/adapters.go`).  What
`CreateConsumer` does is the engine's.
-/

namespace LlingrKafka.Options

open Bridge Checks LlingrKafka.Config Security

/-- The adapter, and the engine's builder that it is given. -/
structure FranzAdapter (Roots Cert : Type) where
  consumerGroup : String
  seeds : List String
  opts : List (KgoOpt Roots Cert)
  clientLogLevel : Option LogLevel
  pollErrorOpts : List AdapterOption
  topic : String
  demux : DemuxValues
  wiring : FranzConsumer

/-- Its settings that do not come from the security keys. -/
def FranzAdapter.settings {Roots Cert : Type} (a : FranzAdapter Roots Cert) : List Setting :=
  FranzOptions.settings ⟨a.clientLogLevel, a.pollErrorOpts, a.opts⟩

section

variable {Roots Cert : Type} (config : ConfigEnv) (env : SecurityEnv Roots Cert)
  (callbacks : CallbackSet)

/-- The end of `buildFranzConsumer`, up to the call of `CreateConsumer`. -/
def wire (cfg : BridgeConfig) (r : ParsedBandwidth × FranzOptions Roots Cert) :
    FranzAdapter Roots Cert where
  consumerGroup := cfg.consumerGroup
  seeds := (cfg.brokers.toList.splitOn ',').map String.ofList
  opts := r.2.opts
  clientLogLevel := r.2.clientLogLevel
  pollErrorOpts := r.2.pollErrorOpts
  topic := cfg.topic
  demux := cfg.demux
  wiring := buildFranzConsumer callbacks (cfg.service.map fun s => (s.name, s.team)) r.1

/-- `buildConsumer`; `m` is the map `cfg.KafkaConfig`. -/
def buildConsumer (cfg : BridgeConfig) (m : GoMap String String) :
    Except BridgeError (FranzAdapter Roots Cert) :=
  (optionStage config env cfg m).map (wire callbacks cfg)

/-- What `llingr_init` makes of a document. -/
def initConsumer (data : Utf8.Bytes) (m : GoMap String String) :
    Except BridgeError (FranzAdapter Roots Cert) := do
  let cfg ← config.parseBridgeConfig data
  buildConsumer config env callbacks cfg m

/-- Whatever is refused is refused with a text. -/
theorem initConsumer_msg {data : Utf8.Bytes} {m : GoMap String String} {e : BridgeError}
    (h : initConsumer config env callbacks data m = .error e) : e.msg ≠ "" := by
  rcases bind_eq_error.mp h with hparse | ⟨cfg, -, hbuild⟩
  · exact ConfigEnv.parseBridgeConfig_msg hparse
  rcases bind_eq_error.mp (map_eq_error.mp hbuild) with hguard | ⟨_, -, h⟩
  · obtain ⟨fault, -, rfl⟩ := mapError_eq_error.mp hguard
    exact fault.msg_ne_empty config.quote
  rcases bind_eq_error.mp h with hbandwidth | ⟨bw, -, h⟩
  · exact ConfigEnv.parseBandwidth_msg hbandwidth
  rcases bind_eq_error.mp h with hoptions | ⟨r, -, hok⟩
  · obtain ⟨fault, -, rfl⟩ := mapError_eq_error.mp hoptions
    exact fault.msg_ne_empty config.quote
  · cases hok

end

end LlingrKafka.Options
