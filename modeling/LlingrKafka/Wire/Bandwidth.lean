import LlingrKafka.Foundations.Ownership
import LlingrKafka.Metrics.Packet
import LlingrKafka.Wire.Trampolines

/-!
# Flattening a bandwidth packet

`bandwidthSink` of `bridge/main.go`, composed with `bandwidth_trampoline` of
`src/trampolines.rs`: two arrays of C structs whose strings are blocks of their own, and the
loads that read them back.  The offsets are those of the `typedef`s in `main.go` and of the
`repr(C)` structs in `src/ffi.rs`, on a 64-bit target.

As for a record, `none` is a process that does not survive: a crash in `malloc`, undefined
behaviour, or a panic that unwinds out of the trampoline.
-/

namespace LlingrKafka.Wire

open Bridge FixedWidth Memory Metrics Utf8

/-- `sizeof(llingr_broker_info)`: four pointers, each with an int padded to 8 bytes. -/
def brokerInfoSize : ℕ := 64

/-- `sizeof(llingr_partition_bandwidth)`. -/
def partitionBandwidthSize : ℕ := 88

/-- The width of an `int64_t`. -/
def int64Size : ℕ := 8

/-! ## The Go half -/

/-- Memory, and the list `frees`. -/
structure Flattening where
  heap : Heap
  frees : List Address
  deriving DecidableEq, Repr

/-- An assignment to a struct field: of an integer, or of the two results of `cstr`. -/
inductive Assignment
  | int (field width : ℕ) (x : ℤ)
  | cstr (field : ℕ) (text : GoString)
  deriving DecidableEq, Repr

namespace Flattening

/-- `cstr`. -/
def cstr (s : Flattening) (text : GoString) : Option (Flattening × Address × ℤ) :=
  (cString s.heap text).map fun r => (⟨r.1, s.frees ++ [r.2]⟩, r.2, wrap 32 text.length)

/-- One assignment to the struct at `struct`. -/
def assign (struct : Address) (s : Flattening) : Assignment → Option Flattening
  | .int field width x =>
      (s.heap.storeScalar (struct.add field) width (.int x)).map fun heap => { s with heap }
  | .cstr field text =>
      (s.cstr text).bind fun r =>
        (storeField r.1.heap (struct.add field) (some r.2.1) r.2.2).map fun heap =>
          { r.1 with heap }

section

variable {α : Type*} (size : ℕ) (assignments : α → List Assignment)

/-- The loop over the elements of an array. -/
def fill : Address → Flattening → List α → Option Flattening
  | _, s, [] => some s
  | struct, s, x :: rest =>
      ((assignments x).foldlM (assign struct) s).bind fun s' => fill (struct.add size) s' rest

/-- Allocate an array of structs and fill it; null without elements. -/
def array (s : Flattening) (xs : List α) : Option (Flattening × Pointer) :=
  if xs.length = 0 then some (s, none)
  else
    let alloc := s.heap.alloc (sizeT (xs.length * size : ℕ))
    (fill size assignments alloc.2 ⟨alloc.1, s.frees ++ [alloc.2]⟩ xs).map fun s' =>
      (s', some alloc.2)

end

end Flattening

/-- The assignments to a `llingr_broker_info`. -/
def brokerAssignments (b : EngineBroker) : List Assignment :=
  [.cstr 0 b.id, .cstr 16 b.host, .cstr 32 b.port, .cstr 48 b.rack]

/-- The assignments to a `llingr_partition_bandwidth`. -/
def partitionAssignments (p : EnginePartition) : List Assignment :=
  [.int 0 int64Size p.ts.unixNano, .int 8 int64Size p.receivedBytes,
    .int 16 int64Size p.transmittedBytes, .int 24 int64Size p.receivedMessageCount,
    .int 32 int64Size p.compressedBytes, .int 40 int64Size p.uncompressedBytes,
    .int 48 intSize (wrap 32 p.id), .cstr 56 p.leader, .cstr 72 p.compression]

/-! ## The Rust half -/

/-- The arguments of `llingr_bandwidth_fn`. -/
structure BandwidthArgs where
  tsUnixNs : ℤ
  statsIntervalMs : ℤ
  metricsId : Address
  metricsIdLen : ℤ
  topic : Address
  topicLen : ℤ
  group : Address
  groupLen : ℤ
  brokers : Pointer
  brokerCount : ℤ
  partitions : Pointer
  partitionCount : ℤ
  deriving DecidableEq, Repr

/-- `owned_str`. -/
def ownedStr (m : Heap) (ptr : Pointer) (len : ℤ) : Option String :=
  (borrowBytes m ptr len).map decodeLossy

/-- `owned_str` of a pointer and the length behind it. -/
def loadStr (m : Heap) (field : Address) : Option String :=
  (m.loadPointer field pointerSize).bind fun ptr =>
    (m.loadInt (field.add pointerSize) intSize).bind fun len => ownedStr m ptr len

/-- A `BrokerInfoRaw`, decoded. -/
def borrowBroker (m : Heap) (struct : Address) : Option BrokerInfo :=
  (loadStr m (struct.add 0)).bind fun id =>
    (loadStr m (struct.add 16)).bind fun host =>
      (loadStr m (struct.add 32)).bind fun port =>
        (loadStr m (struct.add 48)).map fun rack => { id, host, port, rack }

/-- A `PartitionBandwidthRaw`, decoded. -/
def borrowPartition (m : Heap) (struct : Address) : Option PartitionBandwidth :=
  (m.loadInt (struct.add 0) int64Size).bind fun tsUnixNs =>
    (m.loadInt (struct.add 8) int64Size).bind fun receivedBytes =>
      (m.loadInt (struct.add 16) int64Size).bind fun transmittedBytes =>
        (m.loadInt (struct.add 24) int64Size).bind fun receivedMessageCount =>
          (m.loadInt (struct.add 32) int64Size).bind fun compressedBytes =>
            (m.loadInt (struct.add 40) int64Size).bind fun uncompressedBytes =>
              (m.loadInt (struct.add 48) intSize).bind fun id =>
                (loadStr m (struct.add 56)).bind fun leader =>
                  (loadStr m (struct.add 72)).map fun compression =>
                    { tsUnixNs, receivedBytes, transmittedBytes, receivedMessageCount,
                      compressedBytes, uncompressedBytes, id, leader, compression }

section

variable {β : Type*} (size : ℕ) (borrow : Heap → Address → Option β)

/-- The elements of an array. -/
def borrowElements (m : Heap) (struct : Address) : ℕ → Option (List β)
  | 0 => some []
  | n + 1 =>
      (borrow m struct).bind fun x =>
        (borrowElements m (struct.add size) n).map (x :: ·)

/-- An array: empty for null or a non-positive count. -/
def borrowArray (m : Heap) (ptr : Pointer) (count : ℤ) : Option (List β) :=
  match ptr with
  | none => some []
  | some a => if count ≤ 0 then some [] else borrowElements size borrow m a count.toNat

end

/-- The packet `bandwidth_trampoline` builds from its arguments. -/
def borrowBandwidth (m : Heap) (args : BandwidthArgs) : Option BandwidthMetrics :=
  (borrowArray brokerInfoSize borrowBroker m args.brokers args.brokerCount).bind fun brokers =>
    (borrowArray partitionBandwidthSize borrowPartition m args.partitions
      args.partitionCount).bind fun partitions =>
      (ownedStr m (some args.metricsId) args.metricsIdLen).bind fun metricsId =>
        (ownedStr m (some args.topic) args.topicLen).bind fun topic =>
          (ownedStr m (some args.group) args.groupLen).map fun consumerGroup =>
            { tsUnixNs := args.tsUnixNs
              statsIntervalMs := args.statsIntervalMs
              metricsId
              topic
              consumerGroup
              brokers
              partitions }

/-- `bandwidth_trampoline`, with the packet the handler was given. -/
def bandwidthTrampoline (handler : Option (BandwidthMetrics → Unwind Unit)) (m : Heap)
    (args : BandwidthArgs) : Option (Unwind (Option BandwidthMetrics)) :=
  (borrowBandwidth m args).map fun metrics =>
    match handler with
    | none => .ret none
    | some handle =>
        match (handle metrics).catchUnwind with
        | .ok () => .ret (some metrics)
        | .error payload => (dropPanicPayload payload).map fun () => some metrics

/-! ## The sink -/

/-- `bandwidthSink`: memory after the frees, and the packet the handler was given. -/
def bandwidthSink (callbacks : CallbackSet) (handler : Option (BandwidthMetrics → Unwind Unit))
    (m : Heap) (topicName : GoString) (packet : EngineBandwidth) :
    Option (Heap × Option BandwidthMetrics) :=
  if callbacks.bandwidth then
    (Flattening.array brokerInfoSize brokerAssignments ⟨m, []⟩ packet.brokers).bind fun brokers =>
      (Flattening.array partitionBandwidthSize partitionAssignments brokers.1
        packet.partitions).bind fun partitions =>
        let topic := if packet.topicName = [] then topicName else packet.topicName
        (partitions.1.cstr packet.bandwidthMetricsID).bind fun metricsId =>
          (metricsId.1.cstr topic).bind fun topicPtr =>
            (topicPtr.1.cstr packet.consumerGroup).bind fun group =>
              (bandwidthTrampoline handler group.1.heap {
                tsUnixNs := packet.ts.unixNano
                statsIntervalMs := packet.statsIntervalDuration.tdiv 1000000
                metricsId := metricsId.2.1
                metricsIdLen := metricsId.2.2
                topic := topicPtr.2.1
                topicLen := topicPtr.2.2
                group := group.2.1
                groupLen := group.2.2
                brokers := brokers.2
                brokerCount := wrap 32 packet.brokers.length
                partitions := partitions.2
                partitionCount := wrap 32 packet.partitions.length }).bind fun left =>
                left.externC.bind fun delivered =>
                  (group.1.heap.freeAll group.1.frees).map fun heap => (heap, delivered)
  else some (m, none)

end LlingrKafka.Wire
