import LlingrKafka.Metrics.Fold
import LlingrKafka.Metrics.Sinks

/-!
# Message metrics are the fold of the packets

One packet asks for at most one update of each series (`handle_eq`), so a sink after a run of
packets is the sink with all of these updates made (`run_eq`), and its series are the counts,
in 64 bits, and last values of the packets of their partition (`messageMetrics_fold`).  The
updates of one partition do not depend on the order of the packets but for the gauges.
-/

namespace LlingrKafka.Metrics

open FixedWidth

/-- The trait bits as they are documented; bit 3 and those from 6 on are not counted. -/
structure TraitBits.Documented (bits : TraitBits) : Prop where
  processError : ∀ traits, bits.hasProcessError traits = traits.getLsbD 0
  processPanic : ∀ traits, bits.hasProcessPanic traits = traits.getLsbD 1
  deadLetter : ∀ traits, bits.hasDeadLetter traits = traits.getLsbD 2
  duplicate : ∀ traits, bits.hasDuplicate traits = traits.getLsbD 4
  usedOverflow : ∀ traits, bits.hasUsedOverflow traits = traits.getLsbD 5

/-- The two timestamps are within 2⁶² in magnitude. -/
def MessageMetrics.Within (metrics : MessageMetrics) : Prop :=
  (-2 ^ 62 ≤ metrics.readTimeNs ∧ metrics.readTimeNs ≤ 2 ^ 62) ∧
    -2 ^ 62 ≤ metrics.processStartTimeNs ∧ metrics.processStartTimeNs ≤ 2 ^ 62

/-- The timestamps are within 2⁶², and not at its opposite ends, 2⁶³ apart. -/
def MessageMetrics.InRange (metrics : MessageMetrics) : Prop :=
  metrics.Within ∧ ¬ (metrics.readTimeNs = -2 ^ 62 ∧ metrics.processStartTimeNs = 2 ^ 62)

/-- Both timestamps are set, and processing started after the read. -/
def MessageMetrics.Waited (metrics : MessageMetrics) : Prop :=
  metrics.readTimeNs ≠ 0 ∧ metrics.processStartTimeNs ≠ 0 ∧
    metrics.readTimeNs < metrics.processStartTimeNs

instance (metrics : MessageMetrics) : Decidable metrics.Waited :=
  inferInstanceAs (Decidable (_ ∧ _ ∧ _))

/-- Packets that differ in uncounted trait bits only. -/
def SameCountedBits (metrics metrics' : MessageMetrics) : Prop :=
  metrics' = { metrics with traits := metrics'.traits } ∧
    ∀ i ∈ [0, 1, 2, 4, 5], metrics'.traits.getLsbD i = metrics.traits.getLsbD i

/-- The series of a counter, or the observation count of a histogram: none without a packet,
else the number of packets in 64 bits. -/
def counterOf (n : ℕ) : Option ℕ := if n = 0 then none else some (n % 2 ^ 64)

namespace MessageSink

variable {Sample : Type} {api : FamilyApi Sample}

/-- The sink after the packets, in order. -/
def run (overflowChecks : Bool) (seconds : ℤ → Sample) (bits : TraitBits) (sink : MessageSink api)
    (packets : List MessageMetrics) : MessageSink api :=
  packets.foldl (fun sink metrics => (sink.handle overflowChecks seconds bits metrics).sink) sink

/-- All counters of a label set, and the observation counts of its histograms. -/
def counts (sink : MessageSink api) (labels : MessageLabels) : List (Option ℕ) :=
  [api.counter sink.processed labels, api.counter sink.errored labels,
    api.counter sink.panicked labels, api.counter sink.deadLettered labels,
    api.counter sink.duplicate labels, api.counter sink.usedOverflow labels,
    api.count sink.processDuration labels, api.count sink.deadLetterDuration labels,
    api.count sink.queueWaitDuration labels]

/-- The eleven series of a label set are those of its packets. -/
structure Folded (sink : MessageSink api) (labels : MessageLabels) (own : List MessageMetrics) :
    Prop where
  processed : api.counter sink.processed labels = counterOf own.length
  errored : api.counter sink.errored labels =
    counterOf (own.countP fun metrics => metrics.traits.getLsbD 0)
  panicked : api.counter sink.panicked labels =
    counterOf (own.countP fun metrics => metrics.traits.getLsbD 1)
  deadLettered : api.counter sink.deadLettered labels =
    counterOf (own.countP fun metrics => metrics.traits.getLsbD 2)
  duplicate : api.counter sink.duplicate labels =
    counterOf (own.countP fun metrics => metrics.traits.getLsbD 4)
  usedOverflow : api.counter sink.usedOverflow labels =
    counterOf (own.countP fun metrics => metrics.traits.getLsbD 5)
  queueDepth : api.gauge sink.queueDepth labels = own.getLast?.map MessageMetrics.queueDepth
  currentOffset : api.gauge sink.currentOffset labels = own.getLast?.map MessageMetrics.offset
  processDuration : api.count sink.processDuration labels =
    counterOf (own.countP fun metrics => decide (0 < metrics.processDurationNs))
  deadLetterDuration : api.count sink.deadLetterDuration labels =
    counterOf (own.countP fun metrics => decide (0 < metrics.deadletterDurationNs))
  queueWaitDuration : api.count sink.queueWaitDuration labels =
    counterOf (own.countP fun metrics => decide metrics.Waited)

/-! ## The updates of a run -/

section

variable {β : Type*}

/-- What the packets that are counted contribute to a family. -/
def contributions (sink : MessageSink api) (counted : MessageMetrics → Bool)
    (value : MessageMetrics → β) (packets : List MessageMetrics) : List (MessageLabels × β) :=
  (packets.filter counted).map fun metrics => (sink.labels metrics.partition, value metrics)

theorem contributions_cons (sink : MessageSink api) (counted : MessageMetrics → Bool)
    (value : MessageMetrics → β) (metrics : MessageMetrics) (packets : List MessageMetrics) :
    sink.contributions counted value (metrics :: packets) =
      sink.contributions counted value [metrics] ++ sink.contributions counted value packets := by
  unfold contributions
  rw [← List.map_append, ← List.filter_append, List.singleton_append]

theorem contributions_singleton (sink : MessageSink api) (counted : MessageMetrics → Bool)
    (value : MessageMetrics → β) (metrics : MessageMetrics) :
    sink.contributions counted value [metrics] =
      if counted metrics then [(sink.labels metrics.partition, value metrics)] else [] := by
  unfold contributions
  rw [List.filter_cons]
  split_ifs <;> rfl

end

/-- The sink with the updates of the packets made. -/
def record (seconds : ℤ → Sample) (bits : TraitBits) (sink : MessageSink api)
    (packets : List MessageMetrics) : MessageSink api :=
  let ones (counted : MessageMetrics → Bool) : List (MessageLabels × ℕ) :=
    sink.contributions counted (fun _ => 1) packets
  { sink with
    processed := api.incAll sink.processed (ones fun _ => true)
    errored := api.incAll sink.errored (ones fun metrics => bits.hasProcessError metrics.traits)
    panicked := api.incAll sink.panicked (ones fun metrics => bits.hasProcessPanic metrics.traits)
    deadLettered :=
      api.incAll sink.deadLettered (ones fun metrics => bits.hasDeadLetter metrics.traits)
    duplicate := api.incAll sink.duplicate (ones fun metrics => bits.hasDuplicate metrics.traits)
    usedOverflow :=
      api.incAll sink.usedOverflow (ones fun metrics => bits.hasUsedOverflow metrics.traits)
    queueDepth := api.setAll sink.queueDepth
      (sink.contributions (fun _ => true) MessageMetrics.queueDepth packets)
    currentOffset := api.setAll sink.currentOffset
      (sink.contributions (fun _ => true) MessageMetrics.offset packets)
    processDuration := api.observeAll sink.processDuration
      (sink.contributions (fun metrics => decide (0 < metrics.processDurationNs))
        (fun metrics => seconds metrics.processDurationNs) packets)
    deadLetterDuration := api.observeAll sink.deadLetterDuration
      (sink.contributions (fun metrics => decide (0 < metrics.deadletterDurationNs))
        (fun metrics => seconds metrics.deadletterDurationNs) packets)
    queueWaitDuration := api.observeAll sink.queueWaitDuration
      (sink.contributions (fun metrics => decide metrics.Waited)
        (fun metrics => seconds (metrics.processStartTimeNs - metrics.readTimeNs)) packets) }

/-- The queue wait of a packet in range: nothing overflows. -/
theorem observeQueueWait_inRange (overflowChecks : Bool) (seconds : ℤ → Sample)
    (sink : MessageSink api) {metrics : MessageMetrics} (h : metrics.InRange) :
    (sink.observeQueueWait overflowChecks seconds metrics).sink =
      { sink with
        queueWaitDuration := api.observeAll sink.queueWaitDuration
          (sink.contributions (fun metrics => decide metrics.Waited)
            (fun metrics => seconds (metrics.processStartTimeNs - metrics.readTimeNs))
            [metrics]) } := by
  have hfits : Fits 64 (metrics.processStartTimeNs - metrics.readTimeNs) := by
    obtain ⟨⟨hread, hstart⟩, hends⟩ := h
    unfold Fits
    omega
  rw [contributions_singleton]
  unfold observeQueueWait
  by_cases hset : metrics.readTimeNs ≠ 0 ∧ metrics.processStartTimeNs ≠ 0
  · simp only [if_pos hset, hfits, wrap_of_fits hfits, not_true_eq_false, decide_false,
      Bool.false_and, Bool.false_eq_true, if_false]
    by_cases hpos : metrics.readTimeNs < metrics.processStartTimeNs
    · have hwaited : metrics.Waited := ⟨hset.1, hset.2, hpos⟩
      rw [if_pos (by omega), if_pos (by simpa using hwaited)]
      rfl
    · have hnot : ¬ metrics.Waited := fun hwaited => hpos hwaited.2.2
      rw [if_neg (by omega), if_neg (by simpa using hnot)]
      rfl
  · have hnot : ¬ metrics.Waited := fun hwaited => hset ⟨hwaited.1, hwaited.2.1⟩
    rw [if_neg hset, if_neg (by simpa using hnot)]
    rfl

/-- One packet asks for its updates, and no others. -/
theorem handle_eq (overflowChecks : Bool) (seconds : ℤ → Sample) (bits : TraitBits)
    (sink : MessageSink api) {metrics : MessageMetrics} (h : metrics.InRange) :
    (sink.handle overflowChecks seconds bits metrics).sink =
      sink.record seconds bits [metrics] := by
  have hinc : ∀ (counted : MessageMetrics → Bool) (fam : api.Counters MessageLabels),
      api.incAll fam (sink.contributions counted (fun _ => 1) [metrics]) =
        if counted metrics then api.incBy fam (sink.labels metrics.partition) 1 else fam := by
    intro counted fam
    rw [contributions_singleton]
    split_ifs <;> rfl
  have hset : ∀ (value : MessageMetrics → ℤ) (fam : api.Gauges MessageLabels ℤ),
      api.setAll fam (sink.contributions (fun _ => true) value [metrics]) =
        api.set fam (sink.labels metrics.partition) (value metrics) := fun _ _ => rfl
  have hobserve : ∀ (value : MessageMetrics → ℤ) (fam : api.Histograms MessageLabels),
      api.observeAll fam (sink.contributions (fun metrics => decide (0 < value metrics))
        (fun metrics => seconds (value metrics)) [metrics]) =
        if value metrics > 0 then
          api.observe fam (sink.labels metrics.partition) (seconds (value metrics))
        else fam := by
    intro value fam
    rw [contributions_singleton]
    by_cases hpos : 0 < value metrics
    · rw [if_pos (by simpa using hpos), if_pos hpos]
      rfl
    · rw [if_neg (by simpa using hpos), if_neg hpos]
      rfl
  rw [handle, observeQueueWait_inRange overflowChecks seconds _ h, record]
  simp only [hinc, hset, hobserve]
  rfl

theorem record_cons (seconds : ℤ → Sample) (bits : TraitBits) (sink : MessageSink api)
    (metrics : MessageMetrics) (packets : List MessageMetrics) :
    sink.record seconds bits (metrics :: packets) =
      (sink.record seconds bits [metrics]).record seconds bits packets := by
  have hlabels : ∀ {β : Type} (counted : MessageMetrics → Bool) (value : MessageMetrics → β),
      (sink.record seconds bits [metrics]).contributions counted value packets =
        sink.contributions counted value packets := fun _ _ => rfl
  have hcons : ∀ {β : Type} (counted : MessageMetrics → Bool) (value : MessageMetrics → β),
      sink.contributions counted value (metrics :: packets) =
        sink.contributions counted value [metrics] ++ sink.contributions counted value packets :=
    fun counted value => contributions_cons sink counted value metrics packets
  rw [record, record]
  simp only [hlabels, hcons, FamilyApi.incAll_append, FamilyApi.setAll_append,
    FamilyApi.observeAll_append]
  rfl

/-- A run makes the updates of its packets. -/
theorem run_eq (overflowChecks : Bool) (seconds : ℤ → Sample) (bits : TraitBits)
    {packets : List MessageMetrics} (h : ∀ metrics ∈ packets, metrics.InRange)
    (sink : MessageSink api) :
    sink.run overflowChecks seconds bits packets = sink.record seconds bits packets := by
  induction packets generalizing sink with
  | nil => rfl
  | cons metrics packets ih =>
      have hlater : ∀ metrics' ∈ packets, metrics'.InRange :=
        fun metrics' hmem => h metrics' (List.mem_cons_of_mem _ hmem)
      calc
        sink.run overflowChecks seconds bits (metrics :: packets) =
            (sink.record seconds bits [metrics]).run overflowChecks seconds bits packets := by
          rw [run, List.foldl_cons,
            handle_eq overflowChecks seconds bits sink (h metrics List.mem_cons_self)]
          rfl
        _ = (sink.record seconds bits [metrics]).record seconds bits packets := ih hlater _
        _ = sink.record seconds bits (metrics :: packets) :=
          (record_cons seconds bits sink metrics packets).symm

/-! ## The series -/

/-- The packets of a label set. -/
def own (sink : MessageSink api) (packets : List MessageMetrics) (labels : MessageLabels) :
    List MessageMetrics :=
  packets.filter fun metrics => sink.labels metrics.partition = labels

theorem selected_contributions {β : Type*} (sink : MessageSink api)
    (counted : MessageMetrics → Bool) (value : MessageMetrics → β) (packets : List MessageMetrics) (labels : MessageLabels) :
    selected (sink.contributions counted value packets) labels =
      ((sink.own packets labels).filter counted).map value := by
  rw [contributions, selected_map, own, List.filter_comm]

section

variable (hapi : api.Documented) (sink : MessageSink api) (packets : List MessageMetrics)
  (labels : MessageLabels)

include hapi

/-- A counter that starts without series counts the packets. -/
theorem counter_run (counted : MessageMetrics → Bool) :
    api.counter (api.incAll api.newCounters
        (sink.contributions counted (fun _ => 1) packets)) labels =
      counterOf ((sink.own packets labels).countP counted) := by
  rw [FamilyApi.counter_incAll hapi, hapi.counter_new, selected_contributions, counterOf,
    List.countP_eq_length_filter]
  simp only [List.map_const', List.sum_replicate_nat, Nat.mul_one, List.replicate_eq_nil_iff,
    Option.getD_none, Nat.zero_add]

/-- A histogram that starts without series observes the packets. -/
theorem histogram_run (counted : MessageMetrics → Bool) (value : MessageMetrics → Sample) :
    api.count (api.observeAll api.newHistograms
        (sink.contributions counted value packets)) labels =
      counterOf ((sink.own packets labels).countP counted) := by
  rw [FamilyApi.count_observeAll hapi, hapi.count_new, selected_contributions, counterOf,
    List.countP_eq_length_filter]
  simp only [List.map_eq_nil_iff, List.length_eq_zero_iff, List.length_map, Option.getD_none,
    Nat.zero_add]

/-- A gauge that starts without series holds the last packet's value. -/
theorem gauge_run (value : MessageMetrics → ℤ) :
    api.gauge (api.setAll api.newGauges
        (sink.contributions (fun _ => true) value packets)) labels =
      (sink.own packets labels).getLast?.map value := by
  rw [FamilyApi.gauge_setAll hapi, hapi.gauge_new, selected_contributions, Option.or_none,
    List.filter_true, List.getLast?_map]

end

/-- The label set of a partition has the partition's packets. -/
theorem own_labels (sink : MessageSink api) (packets : List MessageMetrics) (partition : ℤ) :
    sink.own packets (sink.labels partition) =
      packets.filter fun metrics => metrics.partition = partition := by
  unfold own
  refine List.filter_congr fun metrics _ => ?_
  rw [decide_eq_decide]
  simp [labels]

/-- Every label set has the series of its packets. -/
theorem folded_run (hapi : api.Documented) (overflowChecks : Bool) (seconds : ℤ → Sample)
    {bits : TraitBits} (hbits : bits.Documented) (topic consumerGroup service team : String)
    {packets : List MessageMetrics} (h : ∀ metrics ∈ packets, metrics.InRange)
    (labels : MessageLabels) :
    let fresh : MessageSink api := register topic consumerGroup service team
    Folded (fresh.run overflowChecks seconds bits packets) labels (fresh.own packets labels) := by
  intro fresh
  have hcounter := fun counted : MessageMetrics → Bool =>
    counter_run hapi fresh packets labels counted
  rw [run_eq overflowChecks seconds bits h]
  constructor
  case processed =>
    rw [← List.countP_true]
    exact hcounter fun _ => true
  case errored =>
    simp only [← hbits.processError]
    exact hcounter _
  case panicked =>
    simp only [← hbits.processPanic]
    exact hcounter _
  case deadLettered =>
    simp only [← hbits.deadLetter]
    exact hcounter _
  case duplicate =>
    simp only [← hbits.duplicate]
    exact hcounter _
  case usedOverflow =>
    simp only [← hbits.usedOverflow]
    exact hcounter _
  case queueDepth | currentOffset => exact gauge_run hapi fresh packets labels _
  case processDuration | deadLetterDuration | queueWaitDuration =>
    exact histogram_run hapi fresh packets labels _ _

/-- The counts do not see the order of the packets. -/
theorem Folded.counts_eq {sink sink' : MessageSink api} {labels : MessageLabels}
    {own own' : List MessageMetrics} (h : Folded sink labels own) (h' : Folded sink' labels own')
    (hperm : own'.Perm own) : sink'.counts labels = sink.counts labels := by
  unfold MessageSink.counts
  rw [h.processed, h.errored, h.panicked, h.deadLettered, h.duplicate, h.usedOverflow,
    h.processDuration, h.deadLetterDuration, h.queueWaitDuration, h'.processed, h'.errored,
    h'.panicked, h'.deadLettered, h'.duplicate, h'.usedOverflow, h'.processDuration,
    h'.deadLetterDuration, h'.queueWaitDuration, hperm.length_eq]
  simp only [hperm.countP_eq]

/-- Without packets there is no series. -/
theorem Folded.noSeries {sink : MessageSink api} {labels : MessageLabels}
    (h : Folded sink labels []) :
    (∀ count ∈ sink.counts labels, count = none) ∧ api.gauge sink.queueDepth labels = none ∧
      api.gauge sink.currentOffset labels = none := by
  refine ⟨?_, h.queueDepth, h.currentOffset⟩
  unfold MessageSink.counts
  rw [h.processed, h.errored, h.panicked, h.deadLettered, h.duplicate, h.usedOverflow,
    h.processDuration, h.deadLetterDuration, h.queueWaitDuration]
  simp [counterOf]

/-- The uncounted bits affect nothing. -/
theorem handle_congr (overflowChecks : Bool) (seconds : ℤ → Sample) {bits : TraitBits}
    (hbits : bits.Documented) (sink : MessageSink api) {metrics metrics' : MessageMetrics}
    (h : SameCountedBits metrics metrics') :
    sink.handle overflowChecks seconds bits metrics' =
      sink.handle overflowChecks seconds bits metrics := by
  obtain ⟨heq, hcounted⟩ := h
  generalize metrics'.traits = traits at heq hcounted
  subst heq
  have hcount : sink.count bits { metrics with traits := traits } = sink.count bits metrics := by
    unfold count
    simp only [hbits.processError, hbits.processPanic, hbits.deadLetter, hbits.duplicate,
      hbits.usedOverflow, hcounted 0 (by decide), hcounted 1 (by decide), hcounted 2 (by decide),
      hcounted 4 (by decide), hcounted 5 (by decide)]
  rw [handle, hcount]
  rfl

theorem run_congr (overflowChecks : Bool) (seconds : ℤ → Sample) {bits : TraitBits}
    (hbits : bits.Documented) {packets packets' : List MessageMetrics}
    (h : List.Forall₂ SameCountedBits packets packets') (sink : MessageSink api) :
    sink.run overflowChecks seconds bits packets' =
      sink.run overflowChecks seconds bits packets := by
  induction h generalizing sink with
  | nil => rfl
  | cons hmetrics _ ih =>
      rw [run, List.foldl_cons, handle_congr overflowChecks seconds hbits sink hmetrics]
      exact ih _

end MessageSink

/-- The series of a sink are the fold of the packets it handled.  Each partition has the
counts, in 64 bits, and last values of its own packets, a label set of no packet has no series,
the uncounted trait bits affect nothing, and the counts do not depend on the order. -/
theorem messageMetrics_fold (api : FamilyApi Float) (hapi : api.Documented) (overflowChecks : Bool)
    (bits : TraitBits) (hbits : bits.Documented) (topic consumerGroup service team : String)
    (packets : List MessageMetrics) (h : ∀ metrics ∈ packets, metrics.InRange) :
    let fresh : MessageSink api := .register topic consumerGroup service team
    let sink := fresh.run overflowChecks secondsOfNanos bits packets
    (∀ partition, sink.Folded ⟨topic, consumerGroup, service, team, partition⟩
      (packets.filter fun metrics => metrics.partition = partition)) ∧
    (∀ labels, (∀ metrics ∈ packets,
        ⟨topic, consumerGroup, service, team, metrics.partition⟩ ≠ labels) →
      (∀ count ∈ sink.counts labels, count = none) ∧ api.gauge sink.queueDepth labels = none ∧
        api.gauge sink.currentOffset labels = none) ∧
    (∀ packets', List.Forall₂ SameCountedBits packets packets' →
      fresh.run overflowChecks secondsOfNanos bits packets' = sink) ∧
    ∀ packets', packets'.Perm packets → ∀ labels,
      (fresh.run overflowChecks secondsOfNanos bits packets').counts labels =
        sink.counts labels := by
  intro fresh sink
  have hfolded : ∀ {packets : List MessageMetrics}, (∀ metrics ∈ packets, metrics.InRange) →
      ∀ labels, (fresh.run overflowChecks secondsOfNanos bits packets).Folded labels
        (fresh.own packets labels) := fun h labels =>
    MessageSink.folded_run hapi overflowChecks secondsOfNanos hbits topic consumerGroup service
      team h labels
  refine ⟨fun partition => ?_, fun labels hnone => ?_, fun packets' hsame => ?_,
    fun packets' hperm labels => ?_⟩
  · rw [← MessageSink.own_labels fresh]
    exact hfolded h _
  · have hown : fresh.own packets labels = [] := by
      rw [MessageSink.own, List.filter_eq_nil_iff]
      intro metrics hmetrics
      rw [decide_eq_true_iff]
      exact hnone metrics hmetrics
    have hempty := hfolded h labels
    rw [hown] at hempty
    exact hempty.noSeries
  · exact MessageSink.run_congr overflowChecks secondsOfNanos hbits hsame fresh
  · have hmem : ∀ metrics ∈ packets', metrics.InRange :=
      fun metrics hmetrics => h metrics (hperm.mem_iff.mp hmetrics)
    exact (hfolded h labels).counts_eq (hfolded hmem labels) (hperm.filter _)

/-- The bits as they are documented. -/
def frameworkBits : TraitBits where
  hasProcessError := fun traits => traits.getLsbD 0
  hasProcessPanic := fun traits => traits.getLsbD 1
  hasDeadLetter := fun traits => traits.getLsbD 2
  hasDuplicate := fun traits => traits.getLsbD 4
  hasUsedOverflow := fun traits => traits.getLsbD 5

theorem documented_frameworkBits : frameworkBits.Documented :=
  ⟨fun _ => rfl, fun _ => rfl, fun _ => rfl, fun _ => rfl, fun _ => rfl⟩

/-- Two partitions, bits that are counted and not, and a wait. -/
def mixedPackets : List MessageMetrics :=
  [⟨0b1011, 7, 3, 41, 2000000, 0, 1000000, 3000000, 0⟩, ⟨0b1000000, 0, 5, 9, 0, 0, 0, 0, 0⟩,
    ⟨0b110001, 2, 3, 42, 0, 4000000, 5000000, 5000000, 0⟩]

theorem messageMetrics_fold_mixed :
    let sink := (MessageSink.register "orders" "grp" "svc" "team" :
      MessageSink (callLog Float)).run true secondsOfNanos frameworkBits mixedPackets
    sink.counts ⟨"orders", "grp", "svc", "team", 3⟩ =
        [some 2, some 2, some 1, none, some 1, some 1, some 1, some 1, some 1] ∧
      (callLog Float).gauge sink.currentOffset ⟨"orders", "grp", "svc", "team", 3⟩ = some 42 := by
  intro sink
  have hrange : ∀ metrics ∈ mixedPackets, metrics.InRange := by
    simp [mixedPackets, MessageMetrics.InRange, MessageMetrics.Within]
  have hfolded := (messageMetrics_fold (callLog Float) documented_callLog true frameworkBits
    documented_frameworkBits "orders" "grp" "svc" "team" mixedPackets hrange).1 3
  refine ⟨?_, hfolded.currentOffset⟩
  rw [MessageSink.counts, hfolded.processed, hfolded.errored, hfolded.panicked,
    hfolded.deadLettered, hfolded.duplicate, hfolded.usedOverflow, hfolded.processDuration,
    hfolded.deadLetterDuration, hfolded.queueWaitDuration]
  decide

/-! ## Where the numbers are too large -/

/-- The series of a counter without a bound. -/
def exactCount (n : ℕ) : Option ℕ := if n = 0 then none else some n

/-- A packet without conditions, durations and timestamps. -/
def idlePacket : MessageMetrics := ⟨0, 0, 0, 0, 0, 0, 0, 0, 0⟩

theorem inRange_idlePackets (n : ℕ) : ∀ metrics ∈ List.replicate n idlePacket, metrics.InRange := by
  intro metrics hmetrics
  rw [List.eq_of_mem_replicate hmetrics]
  simp [idlePacket, MessageMetrics.InRange, MessageMetrics.Within]

theorem filter_idlePackets (n : ℕ) :
    ((List.replicate n idlePacket).filter fun metrics => metrics.partition = 0) =
      List.replicate n idlePacket := by
  refine List.filter_eq_self.mpr fun metrics hmetrics => ?_
  rw [List.eq_of_mem_replicate hmetrics]
  rfl

/-- A sink over the library that logs, after the packets. -/
def loggedRun (packets : List MessageMetrics) : MessageSink (callLog Float) :=
  (MessageSink.register "" "" "" "").run false secondsOfNanos frameworkBits packets

theorem processed_idlePackets (n : ℕ) :
    (callLog Float).counter (loggedRun (List.replicate n idlePacket)).processed
      ⟨"", "", "", "", 0⟩ = counterOf n := by
  have hfolded := @MessageSink.folded_run _ (callLog Float) documented_callLog false
    secondsOfNanos _ documented_frameworkBits "" "" "" "" _ (inRange_idlePackets n)
    ((MessageSink.register "" "" "" "" : MessageSink (callLog Float)).labels 0)
  simp only [MessageSink.own_labels, filter_idlePackets] at hfolded
  have hcount := hfolded.processed
  rw [List.length_replicate] at hcount
  exact hcount

/-- The counters are 64-bit, and so is the difference of the timestamps. -/
theorem messageMetrics_wrapped :
    (¬ ∀ packets : List MessageMetrics, (∀ metrics ∈ packets, metrics.Within) →
      (callLog Float).counter (loggedRun packets).processed ⟨"", "", "", "", 0⟩ =
        exactCount (packets.filter fun metrics => metrics.partition = 0).length) ∧
    ¬ ∀ packets : List MessageMetrics, (∀ metrics ∈ packets, metrics.Within) →
      (callLog Float).count (loggedRun packets).queueWaitDuration ⟨"", "", "", "", 0⟩ =
        exactCount ((packets.filter fun metrics => metrics.partition = 0).countP
          fun metrics => decide metrics.Waited) := by
  constructor
  · intro hclaim
    have hcount := hclaim (List.replicate (2 ^ 64) idlePacket) fun metrics hmetrics =>
      (inRange_idlePackets _ metrics hmetrics).1
    rw [processed_idlePackets, filter_idlePackets, List.length_replicate] at hcount
    have hwrapped : counterOf (2 ^ 64) = some 0 := by decide
    have hexact : exactCount (2 ^ 64) = some (2 ^ 64) := by decide
    rw [hwrapped, hexact] at hcount
    exact absurd (Option.some_inj.mp hcount) (by decide)
  · intro hclaim
    have hwaits := hclaim [⟨0, 0, 0, 0, 0, 0, -2 ^ 62, 2 ^ 62, 0⟩]
      (by simp [MessageMetrics.Within])
    exact absurd hwaits (by decide)

end LlingrKafka.Metrics
