import LlingrKafka.Wire.Filled
import LlingrKafka.Wire.Verdict
import Mathlib.Data.List.Forall2

/-!
# Bandwidth packets survive the boundary

The packet the bandwidth handler is given is `forwardBandwidth` of the engine's
(`bandwidthSink_spec`): the two arrays and every string are there when the trampoline reads
them.  Counts cross as C ints, so that up to 2^31 - 1 brokers and partitions arrive
(`packet_roundTrip`), and none of 2^31 (`packet_dropped`).
-/

namespace LlingrKafka.Wire

open Bridge FixedWidth Memory Metrics Utf8

/-- A text arrives as it is, or decoded lossily when it is not UTF-8. -/
structure TextArrives (bytes : GoString) (text : String) : Prop where
  lossy : text = decodeLossy bytes
  exact : ∀ s, encode s = bytes → text = s

structure BrokerArrives (b : EngineBroker) (out : BrokerInfo) : Prop where
  id : TextArrives b.id out.id
  host : TextArrives b.host out.host
  port : TextArrives b.port out.port
  rack : TextArrives b.rack out.rack

structure PartitionArrives (p : EnginePartition) (out : PartitionBandwidth) : Prop where
  ts : out.tsUnixNs = p.ts.nanos
  receivedBytes : out.receivedBytes = p.receivedBytes
  transmittedBytes : out.transmittedBytes = p.transmittedBytes
  receivedMessageCount : out.receivedMessageCount = p.receivedMessageCount
  compressedBytes : out.compressedBytes = p.compressedBytes
  uncompressedBytes : out.uncompressedBytes = p.uncompressedBytes
  id : out.id = wrap 32 p.id ∧ (Fits 32 p.id → out.id = p.id)
  leader : TextArrives p.leader out.leader
  compression : TextArrives p.compression out.compression

/-- The packet arrives, every field on its own. -/
structure PacketArrives (topicName : GoString) (packet : EngineBandwidth) (out : BandwidthMetrics) :
    Prop where
  ts : out.tsUnixNs = packet.ts.nanos
  interval : out.statsIntervalMs = packet.statsIntervalDuration.tdiv 1000000
  metricsId : TextArrives packet.bandwidthMetricsID out.metricsId
  topic : TextArrives (if packet.topicName = [] then topicName else packet.topicName) out.topic
  consumerGroup : TextArrives packet.consumerGroup out.consumerGroup
  brokers : List.Forall₂ BrokerArrives packet.brokers out.brokers
  partitions : List.Forall₂ PartitionArrives packet.partitions out.partitions

/-- The strings of a packet, and the sink's own. -/
def packetTexts (topicName : GoString) (packet : EngineBandwidth) : List GoString :=
  [topicName, packet.bandwidthMetricsID, packet.topicName, packet.consumerGroup] ++
    packet.brokers.flatMap (fun b => [b.id, b.host, b.port, b.rack]) ++
    packet.partitions.flatMap fun p => [p.leader, p.compression]

/-- The strings are as long as a C int can tell, and the times are int64 nanoseconds. -/
structure Representable (topicName : GoString) (packet : EngineBandwidth) : Prop where
  texts : ∀ text ∈ packetTexts topicName packet, text.length < 2 ^ 31
  ts : Fits 64 packet.ts.nanos
  partitionTs : ∀ p ∈ packet.partitions, Fits 64 p.ts.nanos

/-- What the trampoline makes of a string. -/
def arrivedText (text : GoString) : String := decodeLossy (arrived text)

/-! ## The loads -/

section

variable {m : Heap} {struct : Address}

theorem ownedStr_of_holds {p : Address} {text : GoString} (h : m.Holds p (text.map .byte)) :
    ownedStr m (some p) (wrap 32 text.length) = some (arrivedText text) := by
  rw [ownedStr, borrowBytes_of_holds h]
  rfl

theorem loadInt_of_assigned {field width : ℕ} {x : ℤ}
    (h : Assigned m struct (.int field (width + 1) x)) :
    m.loadInt (struct.add field) (width + 1) = some x :=
  Heap.loadInt_of_holds width h

theorem loadStr_of_assigned {field : ℕ} {text : GoString}
    (h : Assigned m struct (.cstr field text)) :
    loadStr m (struct.add field) = some (arrivedText text) := by
  obtain ⟨p, -, hpointer, hlen, hbytes⟩ := h
  have hptr : m.loadPointer (struct.add field) pointerSize = some (some p) :=
    Heap.loadPointer_of_holds 7 hpointer
  have hcount : m.loadInt ((struct.add field).add pointerSize) intSize =
      some (wrap 32 text.length) := Heap.loadInt_of_holds 3 hlen
  rw [loadStr, hptr, Option.bind_some, hcount, Option.bind_some, ownedStr_of_holds hbytes]

/-- Every field of a broker is read where it was written. -/
theorem borrowBroker_of_assigned {b : EngineBroker}
    (h : ∀ a ∈ brokerAssignments b, Assigned m struct a) :
    borrowBroker m struct = some (forwardBroker arrivedText b) := by
  simp only [brokerAssignments, List.forall_mem_cons] at h
  obtain ⟨hid, hhost, hport, hrack, -⟩ := h
  rw [borrowBroker, loadStr_of_assigned hid, Option.bind_some, loadStr_of_assigned hhost,
    Option.bind_some, loadStr_of_assigned hport, Option.bind_some, loadStr_of_assigned hrack]
  rfl

/-- Every field of a partition is read where it was written. -/
theorem borrowPartition_of_assigned {p : EnginePartition}
    (h : ∀ a ∈ partitionAssignments p, Assigned m struct a) :
    borrowPartition m struct = some (forwardPartition arrivedText p) := by
  simp only [partitionAssignments, List.forall_mem_cons] at h
  obtain ⟨hts, hreceived, htransmitted, hcount, hcompressed, huncompressed, hid, hleader,
    hcompression, -⟩ := h
  rw [borrowPartition, int64Size, intSize, loadInt_of_assigned hts, Option.bind_some,
    loadInt_of_assigned hreceived, Option.bind_some, loadInt_of_assigned htransmitted,
    Option.bind_some, loadInt_of_assigned hcount, Option.bind_some,
    loadInt_of_assigned hcompressed, Option.bind_some, loadInt_of_assigned huncompressed,
    Option.bind_some, loadInt_of_assigned hid, Option.bind_some, loadStr_of_assigned hleader,
    Option.bind_some, loadStr_of_assigned hcompression]
  rfl

end

theorem laidOut_broker (b : EngineBroker) : LaidOut brokerInfoSize (brokerAssignments b) where
  fits := by simp [brokerAssignments, Assignment.field, Assignment.width, brokerInfoSize]
  ordered := by simp [brokerAssignments, Assignment.field, Assignment.width]

theorem laidOut_partition (p : EnginePartition) :
    LaidOut partitionBandwidthSize (partitionAssignments p) where
  fits := by
    simp [partitionAssignments, Assignment.field, Assignment.width, partitionBandwidthSize,
      int64Size, intSize]
  ordered := by
    simp [partitionAssignments, Assignment.field, Assignment.width, int64Size, intSize]

/-! ## The call -/

/-- Whatever the handler does, it was given the packet. -/
theorem bandwidthTrampoline_of_borrow {handle : BandwidthMetrics → Unwind Unit} {m : Heap}
    {args : BandwidthArgs} {metrics : BandwidthMetrics}
    (h : borrowBandwidth m args = some metrics) :
    bandwidthTrampoline (some handle) m args = some (.ret (some metrics)) := by
  rw [bandwidthTrampoline, h, Option.map_some]
  simp only
  cases handle metrics with
  | ret u => rfl
  | panic payload => simp [dropPanicPayload_eq]

/-- The sink returns, and the handler was given what arrives of the packet. -/
theorem bandwidthSink_spec {callbacks : CallbackSet} (hregistered : callbacks.bandwidth = true)
    (handle : BandwidthMetrics → Unwind Unit) (m : Heap) (topicName : GoString)
    (packet : EngineBandwidth) (hbrokers : packet.brokers.length * brokerInfoSize < 2 ^ 64)
    (hpartitions : packet.partitions.length * partitionBandwidthSize < 2 ^ 64) :
    ∃ heap, bandwidthSink callbacks (some handle) m topicName packet =
      some (heap, forwardBandwidth callbacks arrivedText topicName
        { packet with
          brokers := arrived packet.brokers
          partitions := arrived packet.partitions }) := by
  obtain ⟨s₁, brokers, hrun₁, -, howned₁, hread₁⟩ := Flattening.array_spec (s := ⟨m, []⟩)
    (fun _ _ _ h => borrowBroker_of_assigned h) laidOut_broker (by decide) (.nil m) hbrokers
  obtain ⟨s₂, partitions, hrun₂, hextends₂, howned₂, hread₂⟩ := Flattening.array_spec
    (fun _ _ _ h => borrowPartition_of_assigned h) laidOut_partition (by decide) howned₁ hpartitions
  obtain ⟨s₃, hrun₃, hbytes₃, hextends₃, howned₃⟩ :=
    Flattening.cstr_spec howned₂ packet.bandwidthMetricsID
  obtain ⟨s₄, hrun₄, hbytes₄, hextends₄, howned₄⟩ := Flattening.cstr_spec howned₃
    (if packet.topicName = [] then topicName else packet.topicName)
  obtain ⟨s₅, hrun₅, hbytes₅, hextends₅, howned₅⟩ :=
    Flattening.cstr_spec howned₄ packet.consumerGroup
  obtain ⟨heap, hfree⟩ := Heap.freeAll_spec howned₅
  -- what was written is still there when the trampoline runs
  have hextends₃₅ := hextends₄.trans hextends₅
  have hextends₂₅ := hextends₃.trans hextends₃₅
  have hborrow : borrowBandwidth s₅.heap {
      tsUnixNs := packet.ts.unixNano
      statsIntervalMs := packet.statsIntervalDuration.tdiv 1000000
      metricsId := ⟨s₂.heap.blocks.length, 0⟩
      metricsIdLen := wrap 32 packet.bandwidthMetricsID.length
      topic := ⟨s₃.heap.blocks.length, 0⟩
      topicLen := wrap 32 (if packet.topicName = [] then topicName else packet.topicName).length
      group := ⟨s₄.heap.blocks.length, 0⟩
      groupLen := wrap 32 packet.consumerGroup.length
      brokers
      brokerCount := wrap 32 packet.brokers.length
      partitions
      partitionCount := wrap 32 packet.partitions.length } =
      some {
        tsUnixNs := packet.ts.unixNano
        statsIntervalMs := packet.statsIntervalDuration.tdiv 1000000
        metricsId := arrivedText packet.bandwidthMetricsID
        topic := arrivedText (if packet.topicName = [] then topicName else packet.topicName)
        consumerGroup := arrivedText packet.consumerGroup
        brokers := (arrived packet.brokers).map (forwardBroker arrivedText)
        partitions := (arrived packet.partitions).map (forwardPartition arrivedText) } := by
    rw [borrowBandwidth]
    simp only
    rw [hread₁ _ (hextends₂.trans hextends₂₅), Option.bind_some, hread₂ _ hextends₂₅,
      Option.bind_some, ownedStr_of_holds (hextends₃₅ _ _ hbytes₃), Option.bind_some,
      ownedStr_of_holds (hextends₅ _ _ hbytes₄), Option.bind_some, ownedStr_of_holds hbytes₅,
      Option.map_some]
  refine ⟨heap, ?_⟩
  rw [bandwidthSink, if_pos hregistered, hrun₁, Option.bind_some, hrun₂, Option.bind_some]
  simp only
  rw [hrun₃, Option.bind_some, hrun₄, Option.bind_some, hrun₅, Option.bind_some,
    bandwidthTrampoline_of_borrow hborrow, Option.bind_some, Unwind.externC_ret, Option.bind_some,
    hfree, Option.map_some, forwardBandwidth, if_pos hregistered]

/-! ## Packets that fit -/

theorem textArrives_of_lt {text : GoString} (h : text.length < 2 ^ 31) :
    TextArrives text (arrivedText text) where
  lossy := by rw [arrivedText, arrived_of_lt h]
  exact s hs := by rw [arrivedText, arrived_of_lt h, ← hs, decodeLossy_encode]

theorem brokerArrives {b : EngineBroker}
    (h : ∀ text ∈ [b.id, b.host, b.port, b.rack], text.length < 2 ^ 31) :
    BrokerArrives b (forwardBroker arrivedText b) := by
  simp only [List.forall_mem_cons] at h
  obtain ⟨hid, hhost, hport, hrack, -⟩ := h
  exact ⟨textArrives_of_lt hid, textArrives_of_lt hhost, textArrives_of_lt hport,
    textArrives_of_lt hrack⟩

theorem partitionArrives {p : EnginePartition}
    (h : ∀ text ∈ [p.leader, p.compression], text.length < 2 ^ 31) (hts : Fits 64 p.ts.nanos) :
    PartitionArrives p (forwardPartition arrivedText p) where
  ts := GoTime.unixNano_of_fits hts
  receivedBytes := rfl
  transmittedBytes := rfl
  receivedMessageCount := rfl
  compressedBytes := rfl
  uncompressedBytes := rfl
  id := ⟨rfl, wrap_of_fits⟩
  leader := textArrives_of_lt (h _ (by simp))
  compression := textArrives_of_lt (h _ (by simp))

/-- Bandwidth packets survive: with at most 2^31 - 1 brokers and as many partitions, strings no
longer than that and times of int64 nanoseconds, the handler is given every field unchanged,
strings that are not UTF-8 decoded lossily. -/
theorem packet_roundTrip (callbacks : CallbackSet) (hregistered : callbacks.bandwidth = true)
    (handle : BandwidthMetrics → Unwind Unit) (m : Heap) (topicName : GoString)
    (packet : EngineBandwidth) (h : Representable topicName packet)
    (hbrokers : packet.brokers.length < 2 ^ 31) (hpartitions : packet.partitions.length < 2 ^ 31) :
    ∃ heap out, bandwidthSink callbacks (some handle) m topicName packet = some (heap, some out) ∧
      PacketArrives topicName packet out := by
  obtain ⟨heap, hrun⟩ := bandwidthSink_spec hregistered handle m topicName packet
    (by rw [brokerInfoSize]; omega) (by rw [partitionBandwidthSize]; omega)
  rw [arrived_of_lt hbrokers, arrived_of_lt hpartitions, forwardBandwidth,
    if_pos hregistered] at hrun
  have htext : ∀ text ∈ [topicName, packet.bandwidthMetricsID, packet.topicName,
      packet.consumerGroup], text.length < 2 ^ 31 := fun text ht =>
    h.texts text (List.mem_append_left _ (List.mem_append_left _ ht))
  refine ⟨heap, _, hrun, ?_⟩
  constructor
  case ts => exact GoTime.unixNano_of_fits h.ts
  case interval => rfl
  case metricsId => exact textArrives_of_lt (htext _ (by simp))
  case topic =>
    apply textArrives_of_lt
    split_ifs
    · exact htext _ (by simp)
    · exact htext _ (by simp)
  case consumerGroup => exact textArrives_of_lt (htext _ (by simp))
  case brokers =>
    rw [List.forall₂_map_right_iff, List.forall₂_same]
    refine fun b hb => brokerArrives fun text ht => h.texts text ?_
    exact List.mem_append_left _ (List.mem_append_right _ (List.mem_flatMap.mpr ⟨b, hb, ht⟩))
  case partitions =>
    rw [List.forall₂_map_right_iff, List.forall₂_same]
    refine fun p hp => partitionArrives (fun text ht => h.texts text ?_) (h.partitionTs p hp)
    exact List.mem_append_right _ (List.mem_flatMap.mpr ⟨p, hp, ht⟩)

/-- A packet of two brokers, one with a rack that is not UTF-8, and of one partition. -/
def clusterPacket : EngineBandwidth where
  ts := .ofUnixMilli 1900000000000
  statsIntervalDuration := 60000000000
  bandwidthMetricsID := [105, 100]
  topicName := []
  consumerGroup := [103]
  brokers := [⟨[49], [98], [57], [101, 255]⟩, ⟨[50], [99], [57], []⟩]
  partitions := [⟨.ofUnixMilli 1900000000001, 5000000002, 6, 7, 8, 9, 3, [49], []⟩]

theorem packet_roundTrip_cluster :
    ∃ heap out, bandwidthSink ⟨true, true, true, true, true, true⟩ (some fun _ => .panic .plain)
        ⟨[]⟩ [111] clusterPacket = some (heap, some out) ∧ PacketArrives [111] clusterPacket out :=
  packet_roundTrip _ rfl _ ⟨[]⟩ [111] clusterPacket ⟨by decide, by decide, by decide⟩ (by decide)
    (by decide)

/-! ## Counts that do not fit -/

/-- A packet with `n` brokers. -/
def crowdedPacket (n : ℕ) : EngineBandwidth where
  ts := .ofUnixMilli 1900000000000
  statsIntervalDuration := 60000000000
  bandwidthMetricsID := [105, 100]
  topicName := [111]
  consumerGroup := [103]
  brokers := List.replicate n ⟨[49], [98], [57], []⟩
  partitions := []

theorem representable_crowdedPacket (n : ℕ) : Representable [111] (crowdedPacket n) where
  texts text htext := by
    have hshort : text ∈ [[111], [105, 100], [103], [49], [98], [57], ([] : GoString)] := by
      simp only [packetTexts, crowdedPacket, List.flatMap_nil, List.append_nil, List.mem_append,
        List.mem_flatMap, List.mem_replicate] at htext
      rcases htext with htext | ⟨b, ⟨-, rfl⟩, htext⟩
      · revert htext
        revert text
        decide
      · revert htext
        revert text
        decide
    have hlengths : ∀ text ∈ [[111], [105, 100], [103], [49], [98], [57], ([] : GoString)],
        text.length < 2 ^ 31 := by decide
    exact hlengths text hshort
  ts := by
    show Fits 64 (GoTime.ofUnixMilli 1900000000000).nanos
    decide
  partitionTs := by simp [crowdedPacket]

/-- A count that turned negative leaves no broker. -/
theorem brokers_dropped {callbacks : CallbackSet} (hregistered : callbacks.bandwidth = true)
    (handle : BandwidthMetrics → Unwind Unit) (m : Heap) {n : ℕ} (hn : 2 ^ 31 ≤ n ∧ n < 2 ^ 32) :
    ∃ heap out, bandwidthSink callbacks (some handle) m [111] (crowdedPacket n) =
      some (heap, some out) ∧ out.brokers = [] := by
  have hlength : (crowdedPacket n).brokers.length = n := List.length_replicate
  obtain ⟨heap, hrun⟩ := bandwidthSink_spec hregistered handle m [111] (crowdedPacket n)
    (by rw [hlength, brokerInfoSize]; omega) (by simp [crowdedPacket])
  have hcount : (wrap 32 n).toNat = 0 := by
    obtain ⟨k, hk⟩ := wrap_dvd_sub 32 (n : ℤ)
    obtain ⟨hlow, hhigh⟩ := fits_wrap (n := 32) (by decide) (n : ℤ)
    omega
  rw [forwardBandwidth, if_pos hregistered] at hrun
  refine ⟨heap, _, hrun, ?_⟩
  rw [arrived, hlength, hcount, List.take_zero, List.map_nil]

/-- No broker of 2^31 arrives, although every field of the packet fits. -/
theorem packet_dropped :
    Representable [111] (crowdedPacket (2 ^ 31)) ∧
      ∃ heap out, bandwidthSink ⟨true, true, true, true, true, true⟩ (some fun _ => .ret ()) ⟨[]⟩
          [111] (crowdedPacket (2 ^ 31)) = some (heap, some out) ∧
        ¬ PacketArrives [111] (crowdedPacket (2 ^ 31)) out := by
  refine ⟨representable_crowdedPacket _, ?_⟩
  obtain ⟨heap, out, hrun, hnone⟩ := brokers_dropped
    (by rfl : (⟨true, true, true, true, true, true⟩ : CallbackSet).bandwidth = true)
    (fun _ => .ret ()) ⟨[]⟩ (n := 2 ^ 31) ⟨le_refl _, by decide⟩
  refine ⟨heap, out, hrun, fun harrives => ?_⟩
  have hlength := harrives.brokers.length_eq
  have hmany : (crowdedPacket (2 ^ 31)).brokers.length = 2 ^ 31 := List.length_replicate
  rw [hnone, hmany] at hlength
  exact absurd hlength (by decide)

end LlingrKafka.Wire
