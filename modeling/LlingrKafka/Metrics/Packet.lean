import LlingrKafka.Bridge.Callbacks
import LlingrKafka.Metrics.Time

/-!
# Metrics packets across the boundary

The packets the engine hands to the bridge's sinks, what the sinks pass to C, and
what the trampolines make of it: `metricsSinkCallback` and `bandwidthSink` of
`bridge/main.go`, `metrics_trampoline` and `bandwidth_trampoline` of
`src/trampolines.rs`.  Durations are in nanoseconds.

Strings cross the boundary as (pointer, length) pairs and are decoded lossily; the
`decode` parameter is that passage as a whole.
-/

namespace LlingrKafka.Metrics

open Bridge FixedWidth

/-- A Go string. -/
abbrev GoString := List UInt8

/-- `nexus.Metrics`, the engine's per-message packet. -/
structure EngineMetrics where
  traits : BitVec 64
  queueDepth : ℤ
  partition : ℤ
  offset : ℤ
  processDuration : ℤ
  writeDeadLetterDuration : ℤ
  readTime : GoTime
  processStartTime : GoTime
  watermarkAdvanceTime : GoTime
  deriving DecidableEq, Repr

/-- The arguments of `llingr_metrics_fn`. -/
structure MetricsArgs where
  traits : ℤ
  queueDepth : ℤ
  partition : ℤ
  offset : ℤ
  processDurationNs : ℤ
  deadletterDurationNs : ℤ
  readTimeNs : ℤ
  processStartTimeNs : ℤ
  watermarkAdvanceTimeNs : ℤ
  deriving DecidableEq, Repr

/-- `metricsSinkCallback`: nothing is forwarded without a registered callback. -/
def metricsSinkCallback (callbacks : CallbackSet) (metrics : EngineMetrics) :
    Option MetricsArgs :=
  if callbacks.metrics then
    some {
      traits := metrics.traits.toInt
      queueDepth := wrap 32 metrics.queueDepth
      partition := wrap 32 metrics.partition
      offset := metrics.offset
      processDurationNs := metrics.processDuration
      deadletterDurationNs := metrics.writeDeadLetterDuration
      readTimeNs := metrics.readTime.unixNano
      processStartTimeNs := metrics.processStartTime.unixNano
      watermarkAdvanceTimeNs := metrics.watermarkAdvanceTime.unixNano }
  else none

/-- `Metrics` of the crate, which the sink calls `MessageMetrics`. -/
structure MessageMetrics where
  traits : BitVec 64
  queueDepth : ℤ
  partition : ℤ
  offset : ℤ
  processDurationNs : ℤ
  deadletterDurationNs : ℤ
  readTimeNs : ℤ
  processStartTimeNs : ℤ
  watermarkAdvanceTimeNs : ℤ
  deriving DecidableEq, Repr

/-- The packet `metrics_trampoline` hands to the metrics handler. -/
def metricsTrampoline (args : MetricsArgs) : MessageMetrics where
  traits := BitVec.ofInt 64 args.traits
  queueDepth := args.queueDepth
  partition := args.partition
  offset := args.offset
  processDurationNs := args.processDurationNs
  deadletterDurationNs := args.deadletterDurationNs
  readTimeNs := args.readTimeNs
  processStartTimeNs := args.processStartTimeNs
  watermarkAdvanceTimeNs := args.watermarkAdvanceTimeNs

/-- `nexus.BrokerInfo`. -/
structure EngineBroker where
  id : GoString
  host : GoString
  port : GoString
  rack : GoString
  deriving DecidableEq, Repr

/-- `nexus.PartitionBandwidth`. -/
structure EnginePartition where
  ts : GoTime
  receivedBytes : ℤ
  transmittedBytes : ℤ
  receivedMessageCount : ℤ
  compressedBytes : ℤ
  uncompressedBytes : ℤ
  id : ℤ
  leader : GoString
  compression : GoString
  deriving DecidableEq, Repr

/-- `nexus.BandwidthMetrics`. -/
structure EngineBandwidth where
  ts : GoTime
  statsIntervalDuration : ℤ
  bandwidthMetricsID : GoString
  topicName : GoString
  consumerGroup : GoString
  brokers : List EngineBroker
  partitions : List EnginePartition
  deriving DecidableEq, Repr

/-- `BrokerInfo` of the crate. -/
structure BrokerInfo where
  id : String
  host : String
  port : String
  rack : String
  deriving DecidableEq, Repr

/-- `PartitionBandwidth` of the crate. -/
structure PartitionBandwidth where
  tsUnixNs : ℤ
  receivedBytes : ℤ
  transmittedBytes : ℤ
  receivedMessageCount : ℤ
  compressedBytes : ℤ
  uncompressedBytes : ℤ
  id : ℤ
  leader : String
  compression : String
  deriving DecidableEq, Repr

/-- `BandwidthMetrics` of the crate. -/
structure BandwidthMetrics where
  tsUnixNs : ℤ
  statsIntervalMs : ℤ
  metricsId : String
  topic : String
  consumerGroup : String
  brokers : List BrokerInfo
  partitions : List PartitionBandwidth
  deriving DecidableEq, Repr

/-- One broker through `bandwidthSink` and `bandwidth_trampoline`. -/
def forwardBroker (decode : GoString → String) (b : EngineBroker) : BrokerInfo where
  id := decode b.id
  host := decode b.host
  port := decode b.port
  rack := decode b.rack

/-- One partition through `bandwidthSink` and `bandwidth_trampoline`. -/
def forwardPartition (decode : GoString → String) (p : EnginePartition) : PartitionBandwidth where
  tsUnixNs := p.ts.unixNano
  receivedBytes := p.receivedBytes
  transmittedBytes := p.transmittedBytes
  receivedMessageCount := p.receivedMessageCount
  compressedBytes := p.compressedBytes
  uncompressedBytes := p.uncompressedBytes
  id := wrap 32 p.id
  leader := decode p.leader
  compression := decode p.compression

/-- `bandwidthSink` and `bandwidth_trampoline`: the packet the bandwidth handler
sees.  The sink's own topic stands in for a packet without one. -/
def forwardBandwidth (callbacks : CallbackSet) (decode : GoString → String) (topicName : GoString)
    (m : EngineBandwidth) : Option BandwidthMetrics :=
  if callbacks.bandwidth then
    some {
      tsUnixNs := m.ts.unixNano
      statsIntervalMs := m.statsIntervalDuration.tdiv 1000000
      metricsId := decode m.bandwidthMetricsID
      topic := decode (if m.topicName = [] then topicName else m.topicName)
      consumerGroup := decode m.consumerGroup
      brokers := m.brokers.map (forwardBroker decode)
      partitions := m.partitions.map (forwardPartition decode) }
  else none

end LlingrKafka.Metrics
