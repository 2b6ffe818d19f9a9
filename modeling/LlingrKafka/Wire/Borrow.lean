import LlingrKafka.Wire.Marshal

/-!
# Decoding a record in Rust

The Rust half of the boundary: `borrow_bytes`, `decode_timestamp` and
`borrow_headers` of `src/trampolines.rs`, and the `Message::new` both trampolines
share.  A read that `from_raw_parts` does not allow is undefined behaviour, `none`.
-/

namespace LlingrKafka.Wire

open FixedWidth Memory Utf8

/-- `HeaderRaw` of `src/ffi.rs`. -/
structure HeaderRaw where
  key : Pointer
  keyLen : ℤ
  value : Pointer
  valueLen : ℤ
  deriving DecidableEq, Repr

/-- Read a `HeaderRaw`. -/
def loadHeaderRaw (m : Heap) (a : Address) : Option HeaderRaw :=
  (m.loadPointer a pointerSize).bind fun key =>
    (m.loadInt (a.add pointerSize) intSize).bind fun keyLen =>
      (m.loadPointer (a.add valueField) pointerSize).bind fun value =>
        (m.loadInt ((a.add valueField).add pointerSize) intSize).map fun valueLen =>
          ⟨key, keyLen, value, valueLen⟩

/-- `borrow_bytes`: empty for null or a non-positive length. -/
def borrowBytes (m : Heap) (ptr : Pointer) (len : ℤ) : Option Bytes :=
  match ptr with
  | none => some []
  | some a => if len ≤ 0 then some [] else m.loadBytes a len.toNat

/-- A value: a negative length is null. -/
def borrowValue (m : Heap) (ptr : Pointer) (len : ℤ) : Option (Option Bytes) :=
  if len < 0 then some none else (borrowBytes m ptr len).map some

/-- `decode_timestamp`. -/
def decodeTimestamp (kind millis : ℤ) : Timestamp :=
  if kind = 1 then .createTime millis
  else if kind = 2 then .logAppendTime millis
  else .notAvailable

/-- The `Header` view of one struct; a key that is not UTF-8 decodes to `""`. -/
def borrowHeader (m : Heap) (a : Address) : Option Header :=
  (loadHeaderRaw m a).bind fun h =>
    (borrowBytes m h.key h.keyLen).bind fun key =>
      (borrowValue m h.value h.valueLen).map fun value =>
        { key := (decode key).getD "", value }

/-- The views of an array of structs. -/
def borrowHeaderArray (m : Heap) (a : Address) : ℕ → Option (List Header)
  | 0 => some []
  | n + 1 =>
      (borrowHeader m a).bind fun h =>
        (borrowHeaderArray m (a.add headerSize) n).map (h :: ·)

/-- `borrow_headers`. -/
def borrowHeaders (m : Heap) (headers : Pointer) (count : ℤ) : Option (List Header) :=
  match headers with
  | none => some []
  | some a => if count ≤ 0 then some [] else borrowHeaderArray m a count.toNat

/-- The message either trampoline builds from its arguments. -/
def borrowMessage (m : Heap) (topic : String) (args : RecordArgs) : Option Message :=
  (borrowHeaders m args.headers args.headerCount).bind fun headers =>
    (borrowBytes m (some args.key) args.keyLen).bind fun key =>
      (borrowValue m args.value args.valueLen).map fun value =>
        { key := some key
          value
          topic
          partition := args.partition
          offset := args.offset
          timestamp := decodeTimestamp args.tsKind args.tsMillis
          headers }

end LlingrKafka.Wire
