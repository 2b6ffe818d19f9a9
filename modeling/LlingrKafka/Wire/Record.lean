import LlingrKafka.Foundations.Utf8
import LlingrKafka.Metrics.Time

/-!
# Records

A record on its way to the host: the franz record and the envelope the engine puts
around it, the bridge's own view of its metadata (`franzMeta`,
`mapFranzTimestampType` and `franzHeaders` of `bridge/adapter_franz.go`), and the
`Message` a Rust handler is given.  A Go slice that may be nil is an `Option`: nil is
not the empty slice.
-/

namespace LlingrKafka.Wire

open FixedWidth Metrics Utf8

/-- `kgo.RecordHeader`. -/
structure RecordHeader where
  key : Bytes
  value : Option Bytes
  deriving DecidableEq, Repr

/-- `kgo.Record`, the fields the bridge reads; `timestampType` is
`Attrs.TimestampType()`. -/
structure Record where
  value : Option Bytes
  headers : List RecordHeader
  timestamp : GoTime
  timestampType : ℤ
  deriving DecidableEq, Repr

/-- `nexus.Message`: the canonical key, an int32 partition and an int64 offset around
the payload of an adapter. -/
structure Envelope (T : Type*) where
  key : Bytes
  partition : ℤ
  offset : ℤ
  payload : T
  partition_fits : Fits 32 partition
  offset_fits : Fits 64 offset

/-- `bridgeHeader`. -/
structure BridgeHeader where
  key : Bytes
  value : Option Bytes
  deriving DecidableEq, Repr

/-- `recordMeta`. -/
structure RecordMeta where
  tsKind : ℤ
  tsMillis : ℤ
  headers : List BridgeHeader
  deriving DecidableEq, Repr

def tsNotAvailable : ℤ := 0
def tsCreateTime : ℤ := 1
def tsLogAppendTime : ℤ := 2

/-- `mapFranzTimestampType`. -/
def mapFranzTimestampType (t : ℤ) : ℤ :=
  if t = 0 then tsCreateTime
  else if t = 1 then tsLogAppendTime
  else tsNotAvailable

/-- `franzHeaders`; nil and the empty slice have the same length, which is all the
bridge asks of it. -/
def franzHeaders (hs : List RecordHeader) : List BridgeHeader :=
  hs.map fun h => { key := h.key, value := h.value }

/-- `franzMeta`. -/
def franzMeta (r : Record) : RecordMeta where
  tsKind := mapFranzTimestampType r.timestampType
  tsMillis := r.timestamp.unixMilli
  headers := franzHeaders r.headers

/-- `Timestamp` of the crate. -/
inductive Timestamp
  | notAvailable
  | createTime (millis : ℤ)
  | logAppendTime (millis : ℤ)
  deriving DecidableEq, Repr

/-- `Header` of the crate. -/
structure Header where
  key : String
  value : Option Bytes
  deriving DecidableEq, Repr

/-- `Message` of the crate. -/
structure Message where
  key : Option Bytes
  value : Option Bytes
  topic : String
  partition : ℤ
  offset : ℤ
  timestamp : Timestamp
  headers : List Header
  deriving DecidableEq, Repr

end LlingrKafka.Wire
