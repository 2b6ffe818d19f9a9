import LlingrKafka.Metrics.Fold
import LlingrKafka.Metrics.Sinks

/-!
# Bandwidth metrics are the fold of the packets

What a packet does to a `BandwidthSink` splits into three kinds of updates: its gauges, one
for each of its brokers, and one for each of its partitions.  `record` makes updates of the
three kinds, one record after another is the record of both (`record_record`), and handling
packets is recording them (`run_eq`).  From there every family is read off the list of its
updates (`bandwidthMetrics_fold`).
-/

namespace LlingrKafka.Metrics

open FixedWidth

/-- The strictly positive values, added up in 64 bits; no series without one. -/
def sumOf (values : List ℤ) : Option ℕ :=
  if values.filter (fun value => 0 < value) = [] then none
  else some (((values.filter fun value => 0 < value).map Int.toNat).sum % 2 ^ 64)

/-- The brokers of the packets, each with its packet. -/
def brokerEntries (packets : List BandwidthMetrics) : List (BandwidthMetrics × BrokerInfo) :=
  packets.flatMap fun metrics => metrics.brokers.map fun broker => (metrics, broker)

/-- The partitions of the packets, each with its packet. -/
def partitionEntries (packets : List BandwidthMetrics) :
    List (BandwidthMetrics × PartitionBandwidth) :=
  packets.flatMap fun metrics => metrics.partitions.map fun p => (metrics, p)

namespace BandwidthSink

variable {Sample : Type} {api : FamilyApi Sample}

/-- The sink after the packets, in order. -/
def run (sink : BandwidthSink api) (packets : List BandwidthMetrics) : BandwidthSink api :=
  packets.foldl handle sink

def partitionLabels (sink : BandwidthSink api) (metrics : BandwidthMetrics)
    (p : PartitionBandwidth) :
    PartitionLabels :=
  ⟨metrics.topic, metrics.consumerGroup, sink.service, sink.team, p.id⟩

def brokerLabels (sink : BandwidthSink api) (metrics : BandwidthMetrics) (broker : BrokerInfo) :
    BrokerInfoLabels :=
  ⟨metrics.topic, metrics.consumerGroup, sink.service, sink.team, broker.id, broker.host,
    broker.port, broker.rack⟩

/-! ## The updates -/

/-- The increments of a counter: one for each entry whose field is strictly positive. -/
def increments {κ : Type*} (label : BandwidthMetrics → PartitionBandwidth → κ)
    (field : PartitionBandwidth → ℤ) (entries : List (BandwidthMetrics × PartitionBandwidth)) :
    List (κ × ℕ) :=
  (entries.filter fun e => 0 < field e.2).map fun e => (label e.1 e.2, (field e.2).toNat)

/-- The sink with updates of the three kinds made. -/
def record (sink : BandwidthSink api) (packets : List BandwidthMetrics)
    (brokers : List (BandwidthMetrics × BrokerInfo))
    (entries : List (BandwidthMetrics × PartitionBandwidth)) : BandwidthSink api :=
  { sink with
    receivedBytes := api.incAll sink.receivedBytes
      (increments sink.partitionLabels PartitionBandwidth.receivedBytes entries)
    transmittedBytes := api.incAll sink.transmittedBytes
      (increments sink.partitionLabels PartitionBandwidth.transmittedBytes entries)
    receivedMessages := api.incAll sink.receivedMessages
      (increments sink.partitionLabels PartitionBandwidth.receivedMessageCount entries)
    compressedBytes := api.incAll sink.compressedBytes
      (increments sink.compressionLabels PartitionBandwidth.compressedBytes entries)
    uncompressedBytes := api.incAll sink.uncompressedBytes
      (increments sink.compressionLabels PartitionBandwidth.uncompressedBytes entries)
    brokerCount := api.setAll sink.brokerCount
      (packets.map fun metrics => (sink.topologyLabels metrics, wrap 64 metrics.brokers.length))
    partitionCount := api.setAll sink.partitionCount
      (packets.map fun metrics => (sink.topologyLabels metrics, wrap 64 metrics.partitions.length))
    statsIntervalSeconds := api.setAll sink.statsIntervalSeconds
      (packets.map fun metrics =>
        (sink.topologyLabels metrics, secondsOfMillis metrics.statsIntervalMs))
    lastCollectionTimestampSeconds := api.setAll sink.lastCollectionTimestampSeconds
      ((packets.filter fun metrics => metrics.tsUnixNs ≠ 0).map fun metrics =>
        (sink.topologyLabels metrics, metrics.tsUnixNs.tdiv 1000000000))
    brokerInfo := api.setAll sink.brokerInfo
      (brokers.map fun b => (sink.brokerLabels b.1 b.2, 1)) }

theorem increments_append {κ : Type*} (label : BandwidthMetrics → PartitionBandwidth → κ)
    (field : PartitionBandwidth → ℤ)
    (entries entries' : List (BandwidthMetrics × PartitionBandwidth)) :
    increments label field (entries ++ entries') =
      increments label field entries ++ increments label field entries' := by
  unfold increments
  rw [List.filter_append, List.map_append]

/-- A record after a record is the record of both. -/
theorem record_record (sink : BandwidthSink api) (packets packets' : List BandwidthMetrics)
    (brokers brokers' : List (BandwidthMetrics × BrokerInfo))
    (entries entries' : List (BandwidthMetrics × PartitionBandwidth)) :
    (sink.record packets brokers entries).record packets' brokers' entries' =
      sink.record (packets ++ packets') (brokers ++ brokers') (entries ++ entries') := by
  conv_rhs => rw [record]
  simp only [increments_append, List.map_append, List.filter_append, FamilyApi.incAll_append,
    FamilyApi.setAll_append]
  rfl

theorem gauge_eq (sink : BandwidthSink api) (metrics : BandwidthMetrics) :
    sink.gauge metrics = sink.record [metrics] [] [] := by
  have hcollected : api.setAll sink.lastCollectionTimestampSeconds
      (([metrics].filter fun metrics => metrics.tsUnixNs ≠ 0).map fun metrics =>
        (sink.topologyLabels metrics, metrics.tsUnixNs.tdiv 1000000000)) =
      if metrics.tsUnixNs ≠ 0 then
        api.set sink.lastCollectionTimestampSeconds (sink.topologyLabels metrics)
          (metrics.tsUnixNs.tdiv 1000000000)
      else sink.lastCollectionTimestampSeconds := by
    rw [List.filter_cons]
    by_cases hts : metrics.tsUnixNs ≠ 0
    · rw [if_pos hts, if_pos (by simpa using hts)]
      rfl
    · rw [if_neg hts, if_neg (by simpa using hts)]
      rfl
  have hset : ∀ {α : Type} (value : BandwidthMetrics → α) (fam : api.Gauges TopologyLabels α),
      api.setAll fam ([metrics].map fun metrics => (sink.topologyLabels metrics, value metrics)) =
        api.set fam (sink.topologyLabels metrics) (value metrics) := fun _ _ => rfl
  rw [record, hcollected]
  simp only [hset]
  rfl

theorem addBroker_eq (metrics : BandwidthMetrics) (sink : BandwidthSink api) (broker : BrokerInfo) :
    addBroker metrics sink broker = sink.record [] [(metrics, broker)] [] := rfl

theorem addPartition_eq (metrics : BandwidthMetrics) (sink : BandwidthSink api)
    (p : PartitionBandwidth) :
    addPartition metrics sink p = sink.record [] [] [(metrics, p)] := by
  have hinc : ∀ {κ : Type} [DecidableEq κ] (label : BandwidthMetrics → PartitionBandwidth → κ)
      (field : PartitionBandwidth → ℤ) (fam : api.Counters κ),
      api.incAll fam (increments label field [(metrics, p)]) =
        if field p > 0 then api.incBy fam (label metrics p) (field p).toNat else fam := by
    intro κ _ label field fam
    rw [increments, List.filter_cons]
    by_cases hpos : field p > 0
    · rw [if_pos hpos, if_pos (by simpa using hpos)]
      rfl
    · rw [if_neg hpos, if_neg (by simpa using hpos)]
      rfl
  unfold addPartition record
  simp only [hinc]
  rfl

theorem foldl_addBroker (metrics : BandwidthMetrics) (brokers : List BrokerInfo)
    (sink : BandwidthSink api) :
    brokers.foldl (addBroker metrics) sink =
      sink.record [] (brokers.map fun broker => (metrics, broker)) [] := by
  induction brokers generalizing sink with
  | nil => rfl
  | cons broker brokers ih =>
      rw [List.foldl_cons, ih, addBroker_eq, record_record, List.map_cons, List.singleton_append]
      rfl

theorem foldl_addPartition (metrics : BandwidthMetrics) (partitions : List PartitionBandwidth)
    (sink : BandwidthSink api) :
    partitions.foldl (addPartition metrics) sink =
      sink.record [] [] (partitions.map fun p => (metrics, p)) := by
  induction partitions generalizing sink with
  | nil => rfl
  | cons p partitions ih =>
      rw [List.foldl_cons, ih, addPartition_eq, record_record, List.map_cons,
        List.singleton_append]
      rfl

/-- Handling packets is recording them. -/
theorem run_eq (packets : List BandwidthMetrics) (sink : BandwidthSink api) :
    sink.run packets =
      sink.record packets (brokerEntries packets) (partitionEntries packets) := by
  induction packets generalizing sink with
  | nil => rfl
  | cons metrics packets ih =>
      have hhandle : sink.handle metrics =
          sink.record [metrics] (brokerEntries [metrics]) (partitionEntries [metrics]) := by
        rw [handle, foldl_addPartition, foldl_addBroker, gauge_eq, record_record, record_record,
          brokerEntries, partitionEntries, List.flatMap_singleton, List.flatMap_singleton]
        simp
      calc
        sink.run (metrics :: packets) = (sink.handle metrics).run packets := rfl
        _ = (sink.handle metrics).record packets (brokerEntries packets)
              (partitionEntries packets) := ih (sink.handle metrics)
        _ = sink.record (metrics :: packets) (brokerEntries (metrics :: packets))
              (partitionEntries (metrics :: packets)) := by
            rw [hhandle, record_record, brokerEntries, brokerEntries, partitionEntries,
              partitionEntries, ← List.flatMap_append, ← List.flatMap_append,
              List.singleton_append]
            rfl

/-! ## The families -/

section

variable (hapi : api.Documented)

include hapi

/-- A counter that starts without series adds up the positive fields of the entries with its
labels. -/
theorem counter_run {κ : Type} [DecidableEq κ] (label : BandwidthMetrics → PartitionBandwidth → κ)
    (field : PartitionBandwidth → ℤ) (entries : List (BandwidthMetrics × PartitionBandwidth))
    (labels : κ) :
    api.counter (api.incAll api.newCounters (increments label field entries)) labels =
      sumOf ((entries.filter fun e => label e.1 e.2 = labels).map fun e => field e.2) := by
  rw [FamilyApi.counter_incAll hapi, hapi.counter_new, increments, selected_map, List.filter_comm,
    sumOf, List.filter_map]
  simp only [List.map_eq_nil_iff, List.map_map, Option.getD_none, Nat.zero_add]
  rfl

/-- A gauge that starts without series holds the value of the last packet with its labels. -/
theorem gauge_run {α : Type} (sink : BandwidthSink api) (value : BandwidthMetrics → α)
    (packets : List BandwidthMetrics) (labels : TopologyLabels) :
    api.gauge (api.setAll api.newGauges
        (packets.map fun metrics => (sink.topologyLabels metrics, value metrics))) labels =
      (packets.filter fun metrics => sink.topologyLabels metrics = labels).getLast?.map value := by
  calc api.gauge (api.setAll api.newGauges
        (packets.map fun metrics => (sink.topologyLabels metrics, value metrics))) labels
      = (selected (packets.map fun metrics => (sink.topologyLabels metrics, value metrics))
          labels).getLast? := by
        rw [FamilyApi.gauge_setAll hapi, hapi.gauge_new, Option.or_none]
    _ = ((packets.filter fun metrics => sink.topologyLabels metrics = labels).map
          value).getLast? := by rw [selected_map]
    _ = _ := List.getLast?_map

/-- A broker has a series of value 1 once it was seen. -/
theorem brokerInfo_run (sink : BandwidthSink api) (brokers : List (BandwidthMetrics × BrokerInfo))
    (labels : BrokerInfoLabels) :
    api.gauge (api.setAll api.newGauges
        (brokers.map fun b => (sink.brokerLabels b.1 b.2, (1 : ℤ)))) labels =
      if labels ∈ brokers.map fun b => sink.brokerLabels b.1 b.2 then some 1 else none := by
  rw [FamilyApi.gauge_setAll hapi, hapi.gauge_new, selected_map, Option.or_none, List.map_const']
  split_ifs with hseen
  · obtain ⟨b, hb, rfl⟩ := List.mem_map.mp hseen
    have hown : b ∈ brokers.filter fun b' =>
        sink.brokerLabels b'.1 b'.2 = sink.brokerLabels b.1 b.2 :=
      List.mem_filter.mpr ⟨hb, by simp⟩
    rw [List.getLast?_replicate, if_neg (List.length_pos_of_mem hown).ne']
  · have hnone : (brokers.filter fun b => sink.brokerLabels b.1 b.2 = labels) = [] := by
      rw [List.filter_eq_nil_iff]
      intro b hb heq
      exact hseen (List.mem_map.mpr ⟨b, hb, of_decide_eq_true heq⟩)
    rw [hnone]
    rfl

end

/-- A compression without a name is counted as unknown. -/
theorem compressionLabels_eq (sink : BandwidthSink api) (metrics : BandwidthMetrics)
    (p : PartitionBandwidth) :
    sink.compressionLabels metrics p =
      ⟨metrics.topic, metrics.consumerGroup, sink.service, sink.team, p.id,
        if p.compression = "" then "unknown" else p.compression⟩ := by
  rw [compressionLabels]
  by_cases hempty : p.compression = ""
  · rw [if_pos hempty, hempty]
    rfl
  · rw [if_neg hempty, if_neg (by simpa using hempty)]

end BandwidthSink

/-- The families of a sink are the fold of the packets it handled.  A counter holds the sum of
the positive fields of the partitions with its labels, in 64 bits, where a compression without a
name counts as "unknown"; every broker seen has one series of value 1 and keeps it; and the
gauges are those of the last packet of their topic and group, the collection time that of the
last one with a timestamp.  (A `Vec` is shorter than 2⁶³.) -/
theorem bandwidthMetrics_fold (api : FamilyApi Float) (hapi : api.Documented)
    (service team : String) (packets : List BandwidthMetrics)
    (hvec : ∀ metrics ∈ packets, metrics.brokers.length < 2 ^ 63 ∧
      metrics.partitions.length < 2 ^ 63) :
    let fresh : BandwidthSink api := .register service team
    let sink := fresh.run packets
    (∀ labels : PartitionLabels,
      let own := (partitionEntries packets).filter fun e =>
        ⟨e.1.topic, e.1.consumerGroup, service, team, e.2.id⟩ = labels
      api.counter sink.receivedBytes labels = sumOf (own.map fun e => e.2.receivedBytes) ∧
        api.counter sink.transmittedBytes labels = sumOf (own.map fun e => e.2.transmittedBytes) ∧
        api.counter sink.receivedMessages labels =
          sumOf (own.map fun e => e.2.receivedMessageCount)) ∧
    (∀ labels : CompressionLabels,
      let own := (partitionEntries packets).filter fun e =>
        ⟨e.1.topic, e.1.consumerGroup, service, team, e.2.id,
          if e.2.compression = "" then "unknown" else e.2.compression⟩ = labels
      api.counter sink.compressedBytes labels = sumOf (own.map fun e => e.2.compressedBytes) ∧
        api.counter sink.uncompressedBytes labels =
          sumOf (own.map fun e => e.2.uncompressedBytes)) ∧
    (∀ labels : BrokerInfoLabels, api.gauge sink.brokerInfo labels =
      if ∃ b ∈ brokerEntries packets, ⟨b.1.topic, b.1.consumerGroup, service, team, b.2.id,
        b.2.host, b.2.port, b.2.rack⟩ = labels then some 1 else none) ∧
    (∀ later labels, (api.gauge sink.brokerInfo labels).isSome →
      api.gauge (fresh.run (packets ++ later)).brokerInfo labels = some 1) ∧
    ∀ labels : TopologyLabels,
      let own := packets.filter fun metrics =>
        ⟨metrics.topic, metrics.consumerGroup, service, team⟩ = labels
      api.gauge sink.brokerCount labels =
          own.getLast?.map (fun metrics => (metrics.brokers.length : ℤ)) ∧
        api.gauge sink.partitionCount labels =
          own.getLast?.map (fun metrics => (metrics.partitions.length : ℤ)) ∧
        api.gauge sink.statsIntervalSeconds labels = own.getLast?.map
          (fun metrics => (Int64.ofInt metrics.statsIntervalMs).toFloat / 1000.0) ∧
        api.gauge sink.lastCollectionTimestampSeconds labels =
          (own.filter fun metrics => metrics.tsUnixNs ≠ 0).getLast?.map
            fun metrics => metrics.tsUnixNs.tdiv 1000000000 := by
  intro fresh sink
  -- the run regroups as one pass over the brokers and one over the partitions
  have hsink : sink = fresh.record packets (brokerEntries packets) (partitionEntries packets) :=
    BandwidthSink.run_eq packets fresh
  have hbrokers : ∀ packets labels, api.gauge (fresh.run packets).brokerInfo labels =
      if ∃ b ∈ brokerEntries packets, ⟨b.1.topic, b.1.consumerGroup, service, team, b.2.id,
        b.2.host, b.2.port, b.2.rack⟩ = labels then some 1 else none := by
    intro packets labels
    rw [BandwidthSink.run_eq]
    refine (BandwidthSink.brokerInfo_run hapi fresh _ labels).trans (if_congr ?_ rfl rfl)
    exact List.mem_map
  refine ⟨fun labels => ?_, fun labels => ?_, hbrokers packets, fun later labels hseen => ?_,
    fun labels => ?_⟩
  · rw [hsink]
    -- the three counters differ in the field they add
    have hcounter := fun field =>
      BandwidthSink.counter_run hapi fresh.partitionLabels field (partitionEntries packets) labels
    exact ⟨hcounter _, hcounter _, hcounter _⟩
  · rw [hsink]
    have hcounter := fun field =>
      BandwidthSink.counter_run hapi fresh.compressionLabels field (partitionEntries packets) labels
    simp only [BandwidthSink.compressionLabels_eq] at hcounter
    exact ⟨hcounter _, hcounter _⟩
  · -- what was seen stays seen
    have hmem : ∃ b ∈ brokerEntries packets, ⟨b.1.topic, b.1.consumerGroup, service, team, b.2.id,
        b.2.host, b.2.port, b.2.rack⟩ = labels := by
      by_contra hnot
      rw [hbrokers packets, if_neg hnot] at hseen
      cases hseen
    obtain ⟨b, hb, hlabels⟩ := hmem
    rw [hbrokers, if_pos]
    refine ⟨b, ?_, hlabels⟩
    rw [brokerEntries, List.flatMap_append]
    exact List.mem_append_left _ hb
  · rw [hsink]
    have hlast : ∀ metrics ∈
        (packets.filter fun metrics => fresh.topologyLabels metrics = labels).getLast?,
        metrics ∈ packets := fun metrics hmetrics =>
      List.mem_of_mem_filter (List.mem_of_getLast? hmetrics)
    have hlength : ∀ {n : ℕ}, n < 2 ^ 63 → wrap 64 (n : ℤ) = n := by
      intro n hn
      exact wrap_of_fits ⟨by omega, by omega⟩
    refine ⟨?_, ?_, BandwidthSink.gauge_run hapi fresh _ packets labels, ?_⟩
    · refine (BandwidthSink.gauge_run hapi fresh _ packets labels).trans (Option.map_congr ?_)
      exact fun metrics hmetrics => hlength (hvec metrics (hlast metrics hmetrics)).1
    · refine (BandwidthSink.gauge_run hapi fresh _ packets labels).trans (Option.map_congr ?_)
      exact fun metrics hmetrics => hlength (hvec metrics (hlast metrics hmetrics)).2
    · have hcollected := BandwidthSink.gauge_run hapi fresh
        (fun metrics => metrics.tsUnixNs.tdiv 1000000000)
        (packets.filter fun metrics => metrics.tsUnixNs ≠ 0) labels
      rw [List.filter_comm] at hcollected
      exact hcollected

/-- A repeated partition, a compression with a name and two without, a negative field, a broker
that moved, and a packet without a timestamp. -/
def movedPackets : List BandwidthMetrics :=
  [⟨1735689600123456789, 60000, "", "orders", "grp", [⟨"1", "h1", "9092", ""⟩],
      [⟨0, 1000, 0, -1, 10, 0, 7, "", ""⟩, ⟨0, 500, -20, 3, 5, 0, 7, "", "unknown"⟩,
        ⟨0, 200, 0, 1, 40, 160, 7, "", "gzip"⟩]⟩,
    ⟨0, 30000, "", "orders", "grp", [⟨"1", "h2", "9092", ""⟩], []⟩]

theorem bandwidthMetrics_fold_moved :
    let api := callLog Float
    let sink := (BandwidthSink.register "svc" "team" : BandwidthSink api).run movedPackets
    api.counter sink.receivedBytes ⟨"orders", "grp", "svc", "team", 7⟩ = some 1700 ∧
      api.counter sink.transmittedBytes ⟨"orders", "grp", "svc", "team", 7⟩ = none ∧
      api.counter sink.compressedBytes ⟨"orders", "grp", "svc", "team", 7, "unknown"⟩ = some 15 ∧
      api.counter sink.compressedBytes ⟨"orders", "grp", "svc", "team", 7, "gzip"⟩ = some 40 ∧
      api.gauge sink.brokerInfo ⟨"orders", "grp", "svc", "team", "1", "h1", "9092", ""⟩ = some 1 ∧
      api.gauge sink.statsIntervalSeconds ⟨"orders", "grp", "svc", "team"⟩ =
        some ((Int64.ofInt 30000).toFloat / 1000.0) ∧
      api.gauge sink.lastCollectionTimestampSeconds ⟨"orders", "grp", "svc", "team"⟩ =
        some 1735689600 := by
  intro api sink
  obtain ⟨hcounters, hcompression, hbrokers, -, htopology⟩ :=
    bandwidthMetrics_fold (callLog Float) documented_callLog "svc" "team" movedPackets (by decide)
  obtain ⟨hreceived, htransmitted, -⟩ := hcounters ⟨"orders", "grp", "svc", "team", 7⟩
  obtain ⟨-, -, hinterval, hcollected⟩ := htopology ⟨"orders", "grp", "svc", "team"⟩
  refine ⟨hreceived.trans (by decide), htransmitted.trans (by decide),
    (hcompression _).1.trans (by decide), (hcompression _).1.trans (by decide),
    (hbrokers _).trans (by decide), hinterval.trans (by rfl), hcollected.trans (by decide)⟩

end LlingrKafka.Metrics
