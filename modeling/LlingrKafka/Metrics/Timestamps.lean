import LlingrKafka.Metrics.Sinks

/-!
# Unset timestamps in the sinks

The sinks take a timestamp of 0 nanoseconds for an unset one.  The bridge converts
with `UnixNano`, which does not send the zero Time to 0 but to the wrapped value
`GoTime.unixNano_zero`; so an unset time arrives as a time in 1754.

`QueueWaitLaw` and `LastCollectionLaw` say what the sinks are meant to record, with a
library that logs every value, and every sample in whole nanoseconds (`nanoLog`).  What
they record is computed from the two converted timestamps (`observeQueueWait_iff`), and
comparing the two gives the exact conditions under which the laws hold.
-/

namespace LlingrKafka.Metrics

open Bridge FixedWidth

/-- The samples are nanoseconds. -/
abbrev nanoLog : FamilyApi ℤ := callLog ℤ

/-- The samples of the queue-wait histogram of a partition. -/
def MessageSink.queueWaits (sink : MessageSink nanoLog) (partition : ℤ) : List ℤ :=
  loggedSamples sink.queueWaitDuration (sink.labels partition)

/-- The queue wait is observed if and only if both times are set and processing
started after the read, then it is their exact difference, and nothing overflows. -/
def QueueWaitLaw (before : MessageSink nanoLog) (after : Handled nanoLog)
    (metrics : EngineMetrics) : Prop :=
  after.overflowed = false ∧ after.panicked = false ∧
    after.sink.queueWaits (wrap 32 metrics.partition) =
      before.queueWaits (wrap 32 metrics.partition) ++
        if metrics.readTime.isZero = false ∧ metrics.processStartTime.isZero = false ∧
          metrics.readTime.before metrics.processStartTime = true then
          [metrics.processStartTime.nanos - metrics.readTime.nanos]
        else []

/-- Where a wait is due, the conversions must lose the same multiple of 2^64, hit 0 on
neither side, and leave a difference an `i64` holds.  Where none is due, a converted
timestamp must be 0, or the difference must not be positive nor overflow. -/
def QueueWaitExact (read start : GoTime) : Prop :=
  if read.isZero = false ∧ start.isZero = false ∧ read.before start = true then
    read.unixNano ≠ 0 ∧ start.unixNano ≠ 0 ∧
      start.nanos - start.unixNano = read.nanos - read.unixNano ∧
      start.nanos - read.nanos < 2 ^ 63
  else
    read.unixNano = 0 ∨ start.unixNano = 0 ∨
      (start.unixNano ≤ read.unixNano ∧ read.unixNano - start.unixNano ≤ 2 ^ 63)

instance (read start : GoTime) : Decidable (QueueWaitExact read start) := by
  unfold QueueWaitExact
  infer_instance

/-- The flag says whether the difference fits. -/
theorem observeQueueWait_overflowed (overflowChecks : Bool) (sink : MessageSink nanoLog)
    {metrics : MessageMetrics} (hset : metrics.readTimeNs ≠ 0 ∧ metrics.processStartTimeNs ≠ 0) :
    (sink.observeQueueWait overflowChecks id metrics).overflowed =
      decide (¬ Fits 64 (metrics.processStartTimeNs - metrics.readTimeNs)) := by
  unfold MessageSink.observeQueueWait
  simp only [if_pos hset]
  split
  · rfl
  · split <;> rfl

/-- A difference that fits is observed when it is positive. -/
theorem observeQueueWait_fits (overflowChecks : Bool) (sink : MessageSink nanoLog)
    {metrics : MessageMetrics} (hset : metrics.readTimeNs ≠ 0 ∧ metrics.processStartTimeNs ≠ 0)
    (hfits : Fits 64 (metrics.processStartTimeNs - metrics.readTimeNs)) :
    (sink.observeQueueWait overflowChecks id metrics).panicked = false ∧
      (sink.observeQueueWait overflowChecks id metrics).sink.queueWaits metrics.partition =
        sink.queueWaits metrics.partition ++
          if metrics.processStartTimeNs - metrics.readTimeNs > 0 then
            [metrics.processStartTimeNs - metrics.readTimeNs] else [] := by
  unfold MessageSink.observeQueueWait
  simp only [if_pos hset, hfits, wrap_of_fits hfits, not_true_eq_false, decide_false,
    Bool.false_and, Bool.false_eq_true, if_false]
  split
  · exact ⟨rfl, loggedSamples_observe _ _ _⟩
  · exact ⟨rfl, (List.append_nil _).symm⟩

/-- What the queue wait comes to, for any expected observation `due`. -/
theorem observeQueueWait_iff (overflowChecks : Bool) (sink : MessageSink nanoLog)
    (metrics : MessageMetrics) (due : List ℤ) :
    ((sink.observeQueueWait overflowChecks id metrics).overflowed = false ∧
      (sink.observeQueueWait overflowChecks id metrics).panicked = false ∧
      (sink.observeQueueWait overflowChecks id metrics).sink.queueWaits metrics.partition =
        sink.queueWaits metrics.partition ++ due) ↔
    (if metrics.readTimeNs ≠ 0 ∧ metrics.processStartTimeNs ≠ 0 then
      Fits 64 (metrics.processStartTimeNs - metrics.readTimeNs) ∧
        due = if metrics.processStartTimeNs - metrics.readTimeNs > 0 then
          [metrics.processStartTimeNs - metrics.readTimeNs] else []
    else due = []) := by
  by_cases hset : metrics.readTimeNs ≠ 0 ∧ metrics.processStartTimeNs ≠ 0
  · rw [if_pos hset, observeQueueWait_overflowed overflowChecks sink hset]
    by_cases hfits : Fits 64 (metrics.processStartTimeNs - metrics.readTimeNs)
    · obtain ⟨hpanicked, hwaits⟩ := observeQueueWait_fits overflowChecks sink hset hfits
      rw [hpanicked, hwaits, List.append_cancel_left_eq]
      simp only [hfits, not_true_eq_false, decide_false, true_and]
      exact eq_comm
    · simp [hfits]
  · rw [if_neg hset]
    unfold MessageSink.observeQueueWait
    rw [if_neg hset]
    simp

/-- The observation that is due, compared with the one the converted timestamps give. -/
theorem queueWaitExact_iff (read start : GoTime) :
    (if read.unixNano ≠ 0 ∧ start.unixNano ≠ 0 then
      Fits 64 (start.unixNano - read.unixNano) ∧
        (if read.isZero = false ∧ start.isZero = false ∧ read.before start = true then
          [start.nanos - read.nanos] else []) =
        if start.unixNano - read.unixNano > 0 then [start.unixNano - read.unixNano] else []
    else (if read.isZero = false ∧ start.isZero = false ∧ read.before start = true then
      [start.nanos - read.nanos] else []) = []) ↔ QueueWaitExact read start := by
  have hread := read.fits_unixNano
  have hstart := start.fits_unixNano
  unfold QueueWaitExact
  unfold Fits at *
  generalize read.unixNano = r at *
  generalize start.unixNano = s at *
  by_cases hdue : read.isZero = false ∧ start.isZero = false ∧
      read.before start = true
  · have hlater := (GoTime.before_iff _ _).mp hdue.2.2
    -- due: exact when both times are set and their difference does not wrap
    rw [if_pos hdue, if_pos hdue]
    by_cases hset : r ≠ 0 ∧ s ≠ 0
    · rw [if_pos hset]
      by_cases hpos : s - r > 0
      · rw [if_pos hpos, List.cons.injEq]
        constructor
        · rintro ⟨hfits, hsame, _⟩
          refine ⟨hset.1, hset.2, ?_, ?_⟩ <;> omega
        · rintro ⟨_, _, hwindow, hless⟩
          refine ⟨⟨?_, ?_⟩, ?_, rfl⟩ <;> omega
      · rw [if_neg hpos]
        constructor
        · rintro ⟨_, hnone⟩
          cases hnone
        · rintro ⟨_, _, hwindow, _⟩
          omega
    · rw [if_neg hset]
      constructor
      · intro hnone
        cases hnone
      · rintro ⟨hr, hs, _⟩
        exact absurd ⟨hr, hs⟩ hset
  -- not due: exact when the guard or a difference that is not positive drops it
  · rw [if_neg hdue, if_neg hdue]
    by_cases hset : r ≠ 0 ∧ s ≠ 0
    · rw [if_pos hset]
      by_cases hpos : s - r > 0
      · rw [if_pos hpos]
        constructor
        · rintro ⟨_, hnone⟩
          cases hnone
        · rintro (hr | hs | ⟨hle, _⟩)
          · exact absurd hr hset.1
          · exact absurd hs hset.2
          · omega
      · rw [if_neg hpos]
        constructor
        · rintro ⟨hfits, _⟩
          refine .inr (.inr ⟨?_, ?_⟩) <;> omega
        · rintro (hr | hs | ⟨hle, hbound⟩)
          · exact absurd hr hset.1
          · exact absurd hs hset.2
          · refine ⟨⟨?_, ?_⟩, rfl⟩ <;> omega
    · rw [if_neg hset]
      simp only [true_iff]
      omega

/-- **When the queue wait is recorded as it should be.** -/
theorem queueWaitLaw_iff {callbacks : CallbackSet} (hmetrics : callbacks.metrics = true)
    (overflowChecks : Bool) (bits : TraitBits) (sink : MessageSink nanoLog)
    (metrics : EngineMetrics) :
    QueueWaitLaw sink (forwardMetrics callbacks overflowChecks id bits sink metrics) metrics ↔
      QueueWaitExact metrics.readTime metrics.processStartTime := by
  unfold QueueWaitLaw forwardMetrics metricsSinkCallback MessageSink.handle
  rw [if_pos hmetrics]
  exact (observeQueueWait_iff ..).trans (queueWaitExact_iff ..)

/-! ## The last collection -/

/-- The gauge is written, with the seconds of the collection, if and only if the
packet's timestamp is set, whatever was recorded before. -/
def LastCollectionLaw (packet : BandwidthMetrics) (ts : GoTime) : Prop :=
  ∀ sink : BandwidthSink nanoLog,
    nanoLog.gauge (sink.handle packet).lastCollectionTimestampSeconds
        (sink.topologyLabels packet) =
      if ts.isZero = false then some (ts.unixNano.tdiv 1000000000)
      else nanoLog.gauge sink.lastCollectionTimestampSeconds (sink.topologyLabels packet)

namespace BandwidthSink

variable {Sample : Type} {api : FamilyApi Sample}

theorem lastCollection_brokers (metrics : BandwidthMetrics) (brokers : List BrokerInfo)
    (sink : BandwidthSink api) :
    (brokers.foldl (addBroker metrics) sink).lastCollectionTimestampSeconds =
      sink.lastCollectionTimestampSeconds := by
  induction brokers generalizing sink with
  | nil => rfl
  | cons broker rest ih =>
      rw [List.foldl_cons, ih]
      rfl

theorem lastCollection_partitions (metrics : BandwidthMetrics)
    (partitions : List PartitionBandwidth) (sink : BandwidthSink api) :
    (partitions.foldl (addPartition metrics) sink).lastCollectionTimestampSeconds =
      sink.lastCollectionTimestampSeconds := by
  induction partitions generalizing sink with
  | nil => rfl
  | cons p rest ih =>
      rw [List.foldl_cons, ih]
      rfl

/-- Brokers and partitions leave the collection time alone. -/
theorem lastCollection_handle (hapi : api.Documented) (sink : BandwidthSink api)
    (metrics : BandwidthMetrics) :
    api.gauge (sink.handle metrics).lastCollectionTimestampSeconds (sink.topologyLabels metrics) =
      if metrics.tsUnixNs ≠ 0 then some (metrics.tsUnixNs.tdiv 1000000000)
      else api.gauge sink.lastCollectionTimestampSeconds (sink.topologyLabels metrics) := by
  have hgauge : (sink.handle metrics).lastCollectionTimestampSeconds =
      (sink.gauge metrics).lastCollectionTimestampSeconds := by
    unfold handle
    rw [lastCollection_partitions, lastCollection_brokers]
  rw [hgauge]
  unfold gauge
  by_cases hts : metrics.tsUnixNs ≠ 0
  · simp [hts, hapi.gauge_set]
  · simp [hts]

end BandwidthSink

/-- **When the collection time is recorded as it should be.** -/
theorem lastCollectionLaw_iff (packet : BandwidthMetrics) {ts : GoTime}
    (hts : packet.tsUnixNs = ts.unixNano) :
    LastCollectionLaw packet ts ↔ (ts.isZero = false ∧ ts.unixNano ≠ 0) := by
  constructor
  · intro hlaw
    have hfresh := hlaw (BandwidthSink.register "" "")
    rw [BandwidthSink.lastCollection_handle documented_callLog, hts] at hfresh
    cases hzero : ts.isZero with
    | true =>
        -- the zero Time is converted to a non-zero value, and written
        rw [(GoTime.isZero_iff ts).mp hzero] at hfresh
        rw [if_pos (by rw [GoTime.unixNano_zero]; decide), if_neg (by decide)] at hfresh
        cases hfresh
    | false =>
        refine ⟨rfl, fun hepoch => ?_⟩
        rw [hzero, if_neg (by simp [hepoch]), if_pos rfl] at hfresh
        cases hfresh
  · rintro ⟨hset, hne⟩ sink
    rw [BandwidthSink.lastCollection_handle documented_callLog, hts, if_pos hne, if_pos hset]

/-- **When unset timestamps never become samples and waits are exact.** -/
theorem timestamps_iff {callbacks : CallbackSet} (hmetrics : callbacks.metrics = true)
    (hbandwidth : callbacks.bandwidth = true) :
    (∀ overflowChecks bits sink metrics,
      QueueWaitLaw sink (forwardMetrics callbacks overflowChecks id bits sink metrics) metrics ↔
        QueueWaitExact metrics.readTime metrics.processStartTime) ∧
    (∀ decode topicName m, ∃ packet, forwardBandwidth callbacks decode topicName m = some packet ∧
      (LastCollectionLaw packet m.ts ↔ (m.ts.isZero = false ∧ m.ts.unixNano ≠ 0))) := by
  refine ⟨fun overflowChecks bits sink metrics => ?_, fun decode topicName m => ?_⟩
  · exact queueWaitLaw_iff hmetrics overflowChecks bits sink metrics
  · unfold forwardBandwidth
    rw [if_pos hbandwidth]
    exact ⟨_, rfl, lastCollectionLaw_iff _ rfl⟩

/-- A message packet of partition 3 with the two times given. -/
def messagePacket (read start : GoTime) : EngineMetrics where
  traits := 0
  queueDepth := 1
  partition := 3
  offset := 42
  processDuration := 1000000
  writeDeadLetterDuration := 0
  readTime := read
  processStartTime := start
  watermarkAdvanceTime := .zero

/-- A bandwidth packet without brokers and partitions. -/
def bandwidthPacket (ts : GoTime) : EngineBandwidth := ⟨ts, 60000000000, [], [], [], [], []⟩

/-- No bit is reported. -/
def noTraitBits : TraitBits :=
  ⟨fun _ => false, fun _ => false, fun _ => false, fun _ => false, fun _ => false⟩

/-- A message read at the start of 2025 and processed 5 ms later, and a bandwidth
packet of that time. -/
theorem timestamps_iff_set :
    QueueWaitLaw (.register "orders" "g" "" "")
        (forwardMetrics ⟨true, true, true, true, true, true⟩ true id noTraitBits
          (.register "orders" "g" "" "")
          (messagePacket ⟨1735689600, 0, by decide⟩ ⟨1735689600, 5000000, by decide⟩))
        (messagePacket ⟨1735689600, 0, by decide⟩ ⟨1735689600, 5000000, by decide⟩) ∧
      ∃ packet, forwardBandwidth ⟨true, true, true, true, true, true⟩ (fun _ => "") []
          (bandwidthPacket ⟨1735689600, 0, by decide⟩) = some packet ∧
        LastCollectionLaw packet ⟨1735689600, 0, by decide⟩ := by
  obtain ⟨hwait, hcollected⟩ :=
    @timestamps_iff ⟨true, true, true, true, true, true⟩ rfl rfl
  refine ⟨(hwait ..).mpr (by decide), ?_⟩
  obtain ⟨packet, hpacket, hlaw⟩ :=
    hcollected (fun _ => "") [] (bandwidthPacket ⟨1735689600, 0, by decide⟩)
  exact ⟨packet, hpacket, hlaw.mpr (by decide)⟩

/-- A message without a read time is observed to have waited since 1754, and a
bandwidth packet without a timestamp is recorded as collected then. -/
theorem not_timestamps :
    ¬ QueueWaitLaw (.register "orders" "g" "" "")
        (forwardMetrics ⟨true, true, true, true, true, true⟩ true id noTraitBits
          (.register "orders" "g" "" "") (messagePacket .zero ⟨1735689600, 0, by decide⟩))
        (messagePacket .zero ⟨1735689600, 0, by decide⟩) ∧
      ∃ packet, forwardBandwidth ⟨true, true, true, true, true, true⟩ (fun _ => "") []
          (bandwidthPacket .zero) = some packet ∧ ¬ LastCollectionLaw packet .zero := by
  refine ⟨?_, _, rfl, ?_⟩
  · intro hlaw
    exact absurd ((queueWaitLaw_iff rfl ..).mp hlaw) (by decide)
  · intro hlaw
    exact absurd ((lastCollectionLaw_iff _ rfl).mp hlaw) (by decide)

end LlingrKafka.Metrics
