import LlingrKafka.Foundations.Memory
import LlingrKafka.Wire.Record

/-!
# Packing a record for C

The Go half of the boundary: `marshalHeaders` and `marshalValue` of `bridge/main.go`,
and the part of `makeProcessMessage` and `makeWriteDeadLetter` that turns a message
into the arguments of the callback.  Memory is explicit, and `none` is a Go panic, a
crash in `malloc` or undefined behaviour.

`marshalHeaders` lays out one block: the `llingr_header` array, then the key and value
bytes it points to.  The size of the block is computed by one loop over the headers
and used up by another, whose `cursor` is part of the `Packing`.
-/

namespace LlingrKafka.Wire

open FixedWidth Memory Utf8

/-- `sizeof(llingr_header)`: two pointers and two ints, each int padded to 8 bytes. -/
def headerSize : ℕ := 32

/-- The offset of the fields `value` and `value_len` in `llingr_header`; `key` and
`key_len` start it. -/
def valueField : ℕ := 16

/-- The size of a pointer, which is also the offset of a length behind its pointer. -/
def pointerSize : ℕ := 8

def intSize : ℕ := 4

/-- `C.size_t`. -/
def sizeT (x : ℤ) : ℕ := (x % 2 ^ 64).toNat

/-- `C.CString`: a copy with a NUL behind it. -/
def cString (m : Heap) (s : Bytes) : Option (Heap × Address) :=
  let alloc := m.alloc (s.length + 1)
  (alloc.1.storeBytes alloc.2 (s ++ [0])).map fun m' => (m', alloc.2)

/-- Write a pointer and the length behind it. -/
def storeField (m : Heap) (a : Address) (p : Pointer) (len : ℤ) : Option Heap :=
  (m.storeScalar a pointerSize (.pointer p)).bind fun m' =>
    m'.storeScalar (a.add pointerSize) intSize (.int len)

/-- The block of `marshalHeaders`: its first byte, where the copied bytes start, and
how many of them fit. -/
structure Arena where
  block : Address
  structsBytes : ℕ
  size : ℕ
  deriving DecidableEq, Repr

/-- Memory, and how many of the arena's bytes are used up. -/
structure Packing where
  heap : Heap
  cursor : ℕ
  deriving DecidableEq, Repr

/-- `put`, with the assignment of its results to two struct fields at `field`. -/
def putField (arena : Arena) (field : Address) (s : Packing) (src : Bytes) : Option Packing :=
  if src.length = 0 then
    (storeField s.heap field none 0).map fun heap => { s with heap }
  else if s.cursor + src.length ≤ arena.size then
    let dst := arena.block.add (arena.structsBytes + s.cursor)
    (s.heap.storeBytes dst src).bind fun copied =>
      (storeField copied field (some dst) (wrap 32 src.length)).map fun heap =>
        ⟨heap, s.cursor + src.length⟩
  else none

/-- The body of the packing loop for the header whose struct is at `struct`. -/
def packHeader (arena : Arena) (struct : Address) (s : Packing) (h : BridgeHeader) :
    Option Packing :=
  (putField arena struct s h.key).bind fun s' =>
    match h.value with
    | none =>
        (storeField s'.heap (struct.add valueField) none (-1)).map fun heap => { s' with heap }
    | some value => putField arena (struct.add valueField) s' value

/-- The packing loop. -/
def packHeaders (arena : Arena) : Address → Packing → List BridgeHeader → Option Packing
  | _, s, [] => some s
  | struct, s, h :: rest =>
      (packHeader arena struct s h).bind fun s' =>
        packHeaders arena (struct.add headerSize) s' rest

/-- The body of the sizing loop; `total` is a Go int. -/
def sizeHeader (total : ℤ) (h : BridgeHeader) : ℤ :=
  match h.value with
  | none => wrap 64 (total + h.key.length)
  | some value => wrap 64 (wrap 64 (total + h.key.length) + value.length)

/-- The sizing loop. -/
def arenaTotal (headers : List BridgeHeader) : ℤ :=
  headers.foldl sizeHeader (wrap 64 (headers.length * headerSize : ℕ))

/-- Allocate the arena and fill it.  A negative length makes `unsafe.Slice` panic. -/
def packArena (m : Heap) (headers : List BridgeHeader) : Option (Arena × Packing) :=
  let structsBytes := headers.length * headerSize
  let total := arenaTotal headers
  let alloc := m.alloc (sizeT total)
  let size := wrap 64 (total - structsBytes)
  if size < 0 then none
  else
    let arena : Arena := ⟨alloc.2, structsBytes, size.toNat⟩
    (packHeaders arena alloc.2 ⟨alloc.1, 0⟩ headers).map fun s => (arena, s)

/-- `marshalHeaders`: memory, the header array and its count. -/
def marshalHeaders (m : Heap) (headers : List BridgeHeader) : Option (Heap × Pointer × ℤ) :=
  if headers.length = 0 then some (m, none, 0)
  else
    (packArena m headers).map fun r => (r.2.heap, some r.1.block, wrap 32 headers.length)

/-- `marshalValue`.  The backing array of the slice gets the block the model has for
it when its address is taken. -/
def marshalValue (m : Heap) : Option Bytes → Option (Heap × Pointer × ℤ)
  | none => some (m, none, -1)
  | some value =>
      if value.length = 0 then some (m, none, 0)
      else
        let backing := m.alloc value.length
        (backing.1.storeBytes backing.2 value).map fun m' =>
          (m', some backing.2, wrap 32 value.length)

/-- The arguments both callbacks have in common. -/
structure RecordArgs where
  key : Address
  keyLen : ℤ
  value : Pointer
  valueLen : ℤ
  partition : ℤ
  offset : ℤ
  tsKind : ℤ
  tsMillis : ℤ
  headers : Pointer
  headerCount : ℤ
  deriving DecidableEq, Repr

/-- The arguments `makeProcessMessage` and `makeWriteDeadLetter` pass for a message. -/
def packRecord {T : Type*} (valueOf : T → Option Bytes) (metaOf : T → RecordMeta) (m : Heap)
    (msg : Envelope T) : Option (Heap × RecordArgs) :=
  (cString m msg.key).bind fun key =>
    (marshalValue key.1 (valueOf msg.payload)).bind fun value =>
      (marshalHeaders value.1 (metaOf msg.payload).headers).map fun headers =>
        (headers.1, {
          key := key.2
          keyLen := wrap 32 msg.key.length
          value := value.2.1
          valueLen := value.2.2
          partition := wrap 32 msg.partition
          offset := msg.offset
          tsKind := (metaOf msg.payload).tsKind
          tsMillis := (metaOf msg.payload).tsMillis
          headers := headers.2.1
          headerCount := headers.2.2 })

end LlingrKafka.Wire
