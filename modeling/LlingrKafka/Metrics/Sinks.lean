import LlingrKafka.Metrics.Family
import LlingrKafka.Metrics.Packet

/-!
# The metrics sinks

`MessageSink::handle` and `BandwidthSink::handle` of `src/metrics.rs`, over any library of
metric families.  The samples of the histograms are `secondsOfNanos` of a duration; what turns
nanoseconds into a sample is a parameter of the message sink all the same, since the integer
nanoseconds are what the timestamps are judged by.

The subtraction in the queue wait is the only arithmetic of the sinks that can
overflow.  `Handled` records whether it did; a build with overflow checks panics
there, and `metrics_trampoline` contains the panic, so what was recorded before it
stays.
-/

namespace LlingrKafka.Metrics

open FixedWidth

variable {Sample : Type}

/-- `ns as f64 / 1e9`. -/
def secondsOfNanos (ns : ℤ) : Float := (Int64.ofInt ns).toFloat / 1e9

/-- `ms as f64 / 1000.0`. -/
def secondsOfMillis (ms : ℤ) : Float := (Int64.ofInt ms).toFloat / 1000.0

/-- The trait bits the sink counts.  `Traits` belongs to the crate's API package. -/
structure TraitBits where
  hasProcessError : BitVec 64 → Bool
  hasProcessPanic : BitVec 64 → Bool
  hasDeadLetter : BitVec 64 → Bool
  hasDuplicate : BitVec 64 → Bool
  hasUsedOverflow : BitVec 64 → Bool

/-- `MessageLabels`. -/
structure MessageLabels where
  topic : String
  consumerGroup : String
  service : String
  team : String
  partition : ℤ
  deriving DecidableEq, Repr

/-- `MessageSink`. -/
structure MessageSink (api : FamilyApi Sample) where
  topic : String
  consumerGroup : String
  service : String
  team : String
  processed : api.Counters MessageLabels
  errored : api.Counters MessageLabels
  panicked : api.Counters MessageLabels
  deadLettered : api.Counters MessageLabels
  duplicate : api.Counters MessageLabels
  usedOverflow : api.Counters MessageLabels
  queueDepth : api.Gauges MessageLabels ℤ
  currentOffset : api.Gauges MessageLabels ℤ
  processDuration : api.Histograms MessageLabels
  deadLetterDuration : api.Histograms MessageLabels
  queueWaitDuration : api.Histograms MessageLabels

namespace MessageSink

variable {api : FamilyApi Sample}

/-- `MessageSink::register`: no series exists yet. -/
def register (topic consumerGroup service team : String) : MessageSink api where
  topic := topic
  consumerGroup := consumerGroup
  service := service
  team := team
  processed := api.newCounters
  errored := api.newCounters
  panicked := api.newCounters
  deadLettered := api.newCounters
  duplicate := api.newCounters
  usedOverflow := api.newCounters
  queueDepth := api.newGauges
  currentOffset := api.newGauges
  processDuration := api.newHistograms
  deadLetterDuration := api.newHistograms
  queueWaitDuration := api.newHistograms

/-- `MessageSink::labels`. -/
def labels (sink : MessageSink api) (partition : ℤ) : MessageLabels :=
  ⟨sink.topic, sink.consumerGroup, sink.service, sink.team, partition⟩

/-- The counters: the message, then each condition its trait bits report. -/
def count (sink : MessageSink api) (bits : TraitBits) (metrics : MessageMetrics) :
    MessageSink api :=
  let labels := sink.labels metrics.partition
  let incIf (condition : Bool) (counter : api.Counters MessageLabels) :
      api.Counters MessageLabels :=
    if condition then api.incBy counter labels 1 else counter
  { sink with
    processed := api.incBy sink.processed labels 1
    errored := incIf (bits.hasProcessError metrics.traits) sink.errored
    panicked := incIf (bits.hasProcessPanic metrics.traits) sink.panicked
    deadLettered := incIf (bits.hasDeadLetter metrics.traits) sink.deadLettered
    duplicate := incIf (bits.hasDuplicate metrics.traits) sink.duplicate
    usedOverflow := incIf (bits.hasUsedOverflow metrics.traits) sink.usedOverflow }

/-- The gauges, set unconditionally. -/
def gauge (sink : MessageSink api) (metrics : MessageMetrics) : MessageSink api :=
  let labels := sink.labels metrics.partition
  { sink with
    queueDepth := api.set sink.queueDepth labels metrics.queueDepth
    currentOffset := api.set sink.currentOffset labels metrics.offset }

/-- The two durations, observed when strictly positive. -/
def observeDurations (seconds : ℤ → Sample) (sink : MessageSink api) (metrics : MessageMetrics) :
    MessageSink api :=
  let labels := sink.labels metrics.partition
  { sink with
    processDuration :=
      if metrics.processDurationNs > 0 then
        api.observe sink.processDuration labels (seconds metrics.processDurationNs)
      else sink.processDuration
    deadLetterDuration :=
      if metrics.deadletterDurationNs > 0 then
        api.observe sink.deadLetterDuration labels (seconds metrics.deadletterDurationNs)
      else sink.deadLetterDuration }

end MessageSink

/-- A sink after a packet, whether the subtraction of the queue wait overflowed, and
whether it panicked. -/
structure Handled (api : FamilyApi Sample) where
  sink : MessageSink api
  overflowed : Bool
  panicked : Bool

namespace MessageSink

variable {api : FamilyApi Sample}

/-- The queue wait: `process_start_time_ns - read_time_ns` in an `i64`, observed when
both are non-zero and it is positive. -/
def observeQueueWait (overflowChecks : Bool) (seconds : ℤ → Sample) (sink : MessageSink api)
    (metrics : MessageMetrics) : Handled api :=
  if metrics.readTimeNs ≠ 0 ∧ metrics.processStartTimeNs ≠ 0 then
    let difference := metrics.processStartTimeNs - metrics.readTimeNs
    let overflowed := decide (¬ Fits 64 difference)
    if overflowed && overflowChecks then ⟨sink, overflowed, true⟩
    else
      let waitNs := wrap 64 difference
      if waitNs > 0 then
        ⟨{ sink with
          queueWaitDuration :=
            api.observe sink.queueWaitDuration (sink.labels metrics.partition) (seconds waitNs) },
          overflowed, false⟩
      else ⟨sink, overflowed, false⟩
  else ⟨sink, false, false⟩

/-- `MessageSink::handle`. -/
def handle (overflowChecks : Bool) (seconds : ℤ → Sample) (bits : TraitBits)
    (sink : MessageSink api) (metrics : MessageMetrics) : Handled api :=
  observeQueueWait overflowChecks seconds
    (((sink.count bits metrics).gauge metrics).observeDurations seconds metrics) metrics

end MessageSink

/-- A packet of the engine through `metricsSinkCallback`, `metrics_trampoline` and
`MessageSink::handle`. -/
def forwardMetrics {api : FamilyApi Sample} (callbacks : Bridge.CallbackSet)
    (overflowChecks : Bool) (seconds : ℤ → Sample) (bits : TraitBits) (sink : MessageSink api)
    (metrics : EngineMetrics) : Handled api :=
  match metricsSinkCallback callbacks metrics with
  | none => ⟨sink, false, false⟩
  | some args => sink.handle overflowChecks seconds bits (metricsTrampoline args)

/-- `PartitionLabels`. -/
structure PartitionLabels where
  topic : String
  consumerGroup : String
  service : String
  team : String
  partition : ℤ
  deriving DecidableEq, Repr

/-- `CompressionLabels`. -/
structure CompressionLabels where
  topic : String
  consumerGroup : String
  service : String
  team : String
  partition : ℤ
  compression : String
  deriving DecidableEq, Repr

/-- `TopologyLabels`. -/
structure TopologyLabels where
  topic : String
  consumerGroup : String
  service : String
  team : String
  deriving DecidableEq, Repr

/-- `BrokerInfoLabels`. -/
structure BrokerInfoLabels where
  topic : String
  consumerGroup : String
  service : String
  team : String
  brokerId : String
  brokerHost : String
  brokerPort : String
  brokerRack : String
  deriving DecidableEq, Repr

/-- `BandwidthSink`. -/
structure BandwidthSink (api : FamilyApi Sample) where
  service : String
  team : String
  receivedBytes : api.Counters PartitionLabels
  transmittedBytes : api.Counters PartitionLabels
  receivedMessages : api.Counters PartitionLabels
  compressedBytes : api.Counters CompressionLabels
  uncompressedBytes : api.Counters CompressionLabels
  brokerCount : api.Gauges TopologyLabels ℤ
  partitionCount : api.Gauges TopologyLabels ℤ
  statsIntervalSeconds : api.Gauges TopologyLabels Float
  lastCollectionTimestampSeconds : api.Gauges TopologyLabels ℤ
  brokerInfo : api.Gauges BrokerInfoLabels ℤ

namespace BandwidthSink

variable {api : FamilyApi Sample}

/-- `BandwidthSink::register`: no series exists yet. -/
def register (service team : String) : BandwidthSink api where
  service := service
  team := team
  receivedBytes := api.newCounters
  transmittedBytes := api.newCounters
  receivedMessages := api.newCounters
  compressedBytes := api.newCounters
  uncompressedBytes := api.newCounters
  brokerCount := api.newGauges
  partitionCount := api.newGauges
  statsIntervalSeconds := api.newGauges
  lastCollectionTimestampSeconds := api.newGauges
  brokerInfo := api.newGauges

def topologyLabels (sink : BandwidthSink api) (metrics : BandwidthMetrics) : TopologyLabels :=
  ⟨metrics.topic, metrics.consumerGroup, sink.service, sink.team⟩

/-- `BandwidthSink::compression_labels`. -/
def compressionLabels (sink : BandwidthSink api) (metrics : BandwidthMetrics)
    (p : PartitionBandwidth) : CompressionLabels :=
  ⟨metrics.topic, metrics.consumerGroup, sink.service, sink.team, p.id,
    if p.compression.isEmpty then "unknown" else p.compression⟩

/-- The cluster-level gauges; the collection time only when the timestamp is
non-zero. -/
def gauge (sink : BandwidthSink api) (metrics : BandwidthMetrics) : BandwidthSink api :=
  let topology := sink.topologyLabels metrics
  { sink with
    brokerCount := api.set sink.brokerCount topology (wrap 64 metrics.brokers.length)
    partitionCount := api.set sink.partitionCount topology (wrap 64 metrics.partitions.length)
    statsIntervalSeconds :=
      api.set sink.statsIntervalSeconds topology (secondsOfMillis metrics.statsIntervalMs)
    lastCollectionTimestampSeconds :=
      if metrics.tsUnixNs ≠ 0 then
        api.set sink.lastCollectionTimestampSeconds topology (metrics.tsUnixNs.tdiv 1000000000)
      else sink.lastCollectionTimestampSeconds }

/-- One info series for a broker. -/
def addBroker (metrics : BandwidthMetrics) (sink : BandwidthSink api) (broker : BrokerInfo) :
    BandwidthSink api :=
  { sink with
    brokerInfo := api.set sink.brokerInfo
      ⟨metrics.topic, metrics.consumerGroup, sink.service, sink.team, broker.id, broker.host,
        broker.port, broker.rack⟩ 1 }

/-- The counters of one partition: deltas, added only when strictly positive. -/
def addPartition (metrics : BandwidthMetrics) (sink : BandwidthSink api) (p : PartitionBandwidth) :
    BandwidthSink api :=
  let labels : PartitionLabels :=
    ⟨metrics.topic, metrics.consumerGroup, sink.service, sink.team, p.id⟩
  let compression := sink.compressionLabels metrics p
  { sink with
    receivedBytes :=
      if p.receivedBytes > 0 then api.incBy sink.receivedBytes labels p.receivedBytes.toNat
      else sink.receivedBytes
    transmittedBytes :=
      if p.transmittedBytes > 0 then api.incBy sink.transmittedBytes labels p.transmittedBytes.toNat
      else sink.transmittedBytes
    receivedMessages :=
      if p.receivedMessageCount > 0 then
        api.incBy sink.receivedMessages labels p.receivedMessageCount.toNat
      else sink.receivedMessages
    compressedBytes :=
      if p.compressedBytes > 0 then
        api.incBy sink.compressedBytes compression p.compressedBytes.toNat
      else sink.compressedBytes
    uncompressedBytes :=
      if p.uncompressedBytes > 0 then
        api.incBy sink.uncompressedBytes compression p.uncompressedBytes.toNat
      else sink.uncompressedBytes }

/-- `BandwidthSink::handle`. -/
def handle (sink : BandwidthSink api) (metrics : BandwidthMetrics) : BandwidthSink api :=
  let sink := sink.gauge metrics
  let sink := metrics.brokers.foldl (addBroker metrics) sink
  metrics.partitions.foldl (addPartition metrics) sink

end BandwidthSink

end LlingrKafka.Metrics
