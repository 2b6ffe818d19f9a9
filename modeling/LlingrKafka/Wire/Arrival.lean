import LlingrKafka.Wire.Arena
import LlingrKafka.Wire.Trampolines

/-!
# What arrives

Lengths and counts cross the boundary as C ints.  `arrivedMessage` says what the Rust
side sees of a message of any size: every byte string and the header list are cut to
the number of elements their C int still tells (none, when it turned negative), and a
value whose length turned negative arrives as null.  `borrowMessage_packRecord` proves
that this is what the decoding yields.  Lengths below 2^31 survive, so such a message
arrives as it is.
-/

namespace LlingrKafka.Wire

open FixedWidth Memory Utf8

/-- As many elements as the C int of the length tells. -/
def arrived {α : Type*} (xs : List α) : List α := xs.take (wrap 32 xs.length).toNat

def arrivedValue : Option Bytes → Option Bytes
  | none => none
  | some value => if wrap 32 value.length < 0 then none else some (arrived value)

def arrivedHeader (h : BridgeHeader) : Header where
  key := (decode (arrived h.key)).getD ""
  value := arrivedValue h.value

variable {T : Type*}

/-- What the host is handed for a message. -/
def arrivedMessage (valueOf : T → Option Bytes) (metaOf : T → RecordMeta) (topic : String)
    (msg : Envelope T) : Message where
  key := some (arrived msg.key)
  value := arrivedValue (valueOf msg.payload)
  topic := topic
  partition := msg.partition
  offset := msg.offset
  timestamp := decodeTimestamp (metaOf msg.payload).tsKind (metaOf msg.payload).tsMillis
  headers := (arrived (metaOf msg.payload).headers).map arrivedHeader

theorem wrap_length_le {α : Type*} (xs : List α) : (wrap 32 xs.length).toNat ≤ xs.length := by
  have hle := wrap_natCast_le 32 xs.length
  omega

/-! ## Lengths that fit -/

theorem wrap_length_of_lt {n : ℕ} (h : n < 2 ^ 31) : wrap 32 n = n :=
  wrap_of_fits ⟨by omega, by omega⟩

theorem arrived_of_lt {α : Type*} {xs : List α} (h : xs.length < 2 ^ 31) : arrived xs = xs := by
  rw [arrived, wrap_length_of_lt h, Int.toNat_natCast, List.take_length]

theorem arrivedValue_of_lt {value : Option Bytes} (h : ∀ v ∈ value, v.length < 2 ^ 31) :
    arrivedValue value = value := by
  cases value with
  | none => rfl
  | some v =>
      have hv : v.length < 2 ^ 31 := h v rfl
      rw [arrivedValue, wrap_length_of_lt hv, if_neg (by omega), arrived_of_lt hv]

/-! ## Decoding what is held -/

theorem loadBytes_take {m : Heap} {src : Address} {bytes : Bytes} {k : ℕ}
    (h : m.Holds src (bytes.map .byte)) (hk : k ≤ bytes.length) :
    m.loadBytes src k = some (bytes.take k) := by
  have hsplit : m.Holds src ((bytes.take k).map Cell.byte ++ (bytes.drop k).map Cell.byte) := by
    rw [← List.map_append, List.take_append_drop]
    exact h
  have hload := Heap.loadBytes_of_holds hsplit.left
  rwa [List.length_take, Nat.min_eq_left hk] at hload

/-- Bytes read through the C int of their length. -/
theorem borrowBytes_of_holds {m : Heap} {src : Address} {bytes : Bytes}
    (h : m.Holds src (bytes.map .byte)) :
    borrowBytes m (some src) (wrap 32 bytes.length) = some (arrived bytes) := by
  simp only [borrowBytes]
  by_cases hneg : wrap 32 bytes.length ≤ 0
  · have hzero : (wrap 32 bytes.length).toNat = 0 := by omega
    rw [if_pos hneg, arrived, hzero, List.take_zero]
  · rw [if_neg hneg, arrived, loadBytes_take h (wrap_length_le bytes)]

/-- A pointer that is null for no bytes reads the same. -/
theorem borrowBytes_of_field {m : Heap} {src : Address} {bytes : Bytes}
    (h : m.Holds src (bytes.map .byte)) :
    borrowBytes m (fieldPointer src bytes) (wrap 32 bytes.length) = some (arrived bytes) := by
  unfold fieldPointer
  by_cases hempty : bytes.length = 0
  · rw [if_pos hempty, List.length_eq_zero_iff.mp hempty]
    rfl
  · rw [if_neg hempty, borrowBytes_of_holds h]

theorem borrowValue_of_field {m : Heap} {src : Address} {value : Bytes}
    (h : m.Holds src (value.map .byte)) :
    borrowValue m (fieldPointer src value) (wrap 32 value.length) =
      some (arrivedValue (some value)) := by
  by_cases hneg : wrap 32 value.length < 0
  · rw [borrowValue, if_pos hneg, arrivedValue, if_pos hneg]
  · rw [borrowValue, if_neg hneg, borrowBytes_of_field h, Option.map_some, arrivedValue,
      if_neg hneg]

/-- The struct `packHeader` leaves for a header whose bytes start at `src`. -/
def rawHeader (src : Address) (h : BridgeHeader) : HeaderRaw :=
  match h.value with
  | none => ⟨fieldPointer src h.key, wrap 32 h.key.length, none, -1⟩
  | some value =>
      ⟨fieldPointer src h.key, wrap 32 h.key.length, fieldPointer (src.add h.key.length) value,
        wrap 32 value.length⟩

/-- The four fields of a header in memory. -/
theorem loadHeaderRaw_of_holds {m : Heap} {struct : Address} {key value : Pointer}
    {keyLen valueLen : ℤ} (hkey : m.Holds struct (pieces pointerSize (.pointer key)))
    (hkeyLen : m.Holds (struct.add pointerSize) (pieces intSize (.int keyLen)))
    (hvalue : m.Holds (struct.add valueField) (pieces pointerSize (.pointer value)))
    (hvalueLen : m.Holds ((struct.add valueField).add pointerSize)
      (pieces intSize (.int valueLen))) :
    loadHeaderRaw m struct = some ⟨key, keyLen, value, valueLen⟩ := by
  have hkey : m.loadPointer struct pointerSize = some key := Heap.loadPointer_of_holds 7 hkey
  have hkeyLen : m.loadInt (struct.add pointerSize) intSize = some keyLen :=
    Heap.loadInt_of_holds 3 hkeyLen
  have hvalue : m.loadPointer (struct.add valueField) pointerSize = some value :=
    Heap.loadPointer_of_holds 7 hvalue
  have hvalueLen : m.loadInt ((struct.add valueField).add pointerSize) intSize = some valueLen :=
    Heap.loadInt_of_holds 3 hvalueLen
  rw [loadHeaderRaw, hkey, Option.bind_some, hkeyLen, Option.bind_some, hvalue, Option.bind_some,
    hvalueLen, Option.map_some]

theorem loadHeaderRaw_of_held {m : Heap} {struct src : Address} {h : BridgeHeader}
    (hheld : HeaderHeld m struct src h) :
    loadHeaderRaw m struct = some (rawHeader src h) := by
  have hvalue := hheld.value
  unfold rawHeader
  cases hv : h.value with
  | none =>
      rw [hv] at hvalue
      exact loadHeaderRaw_of_holds hheld.key.pointer hheld.key.len hvalue.pointer hvalue.len
  | some value =>
      rw [hv] at hvalue
      exact loadHeaderRaw_of_holds hheld.key.pointer hheld.key.len hvalue.pointer hvalue.len

/-- A struct that holds a header decodes to it. -/
theorem borrowHeader_of_held {m : Heap} {struct src : Address} {h : BridgeHeader}
    (hheld : HeaderHeld m struct src h) : borrowHeader m struct = some (arrivedHeader h) := by
  have hvalue := hheld.value
  rw [borrowHeader, loadHeaderRaw_of_held hheld, Option.bind_some]
  unfold rawHeader arrivedHeader
  cases hv : h.value with
  | none =>
      simp only
      rw [borrowBytes_of_field hheld.key.bytes, Option.bind_some]
      rfl
  | some value =>
      rw [hv] at hvalue
      simp only
      rw [borrowBytes_of_field hheld.key.bytes, Option.bind_some,
        borrowValue_of_field hvalue.bytes, Option.map_some]

/-- An array of structs that hold headers decodes to as many of them as are asked for. -/
theorem borrowHeaderArray_of_held {m : Heap} {headers : List BridgeHeader} :
    ∀ {struct src : Address} {count : ℕ}, HeadersHeld m struct src headers →
      count ≤ headers.length →
      borrowHeaderArray m struct count = some ((headers.take count).map arrivedHeader) := by
  induction headers with
  | nil =>
      intro struct src count _ hcount
      obtain rfl : count = 0 := Nat.le_zero.mp hcount
      rfl
  | cons h rest ih =>
      intro struct src count hheld hcount
      cases count with
      | zero => rfl
      | succ count =>
          rw [List.length_cons] at hcount
          rw [borrowHeaderArray, borrowHeader_of_held hheld.1, Option.bind_some,
            ih hheld.2 (by omega), Option.map_some, List.take_succ_cons, List.map_cons]

/-! ## A packed record -/

/-- `C.CString` leaves the bytes of the text at the start of a block of its own. -/
theorem cString_spec (m : Heap) (s : Bytes) :
    ∃ m', cString m s = some (m', ⟨m.blocks.length, 0⟩) ∧
      m'.Holds ⟨m.blocks.length, 0⟩ (s.map .byte) ∧
      (m'.cell ⟨m.blocks.length, 0⟩).isSome ∧ m.Extends m' := by
  have hlen : ((s ++ [0]).map Cell.byte).length ≤ s.length + 1 := by simp
  obtain ⟨m', hwrite, hholds, hextends⟩ := Heap.alloc_write_spec m hlen
  refine ⟨m', ?_, ?_, ?_, hextends⟩
  · simp only [cString, Heap.storeBytes, hwrite, Option.map_some]
    rfl
  · rw [List.map_append] at hholds
    exact hholds.left
  · have hcell := hholds 0 (by simp)
    simp only [Heap.alloc, Address.add_zero] at hcell
    rw [hcell]
    simp

/-- `marshalValue` passes a pair that decodes to the value. -/
theorem marshalValue_spec (m : Heap) (value : Option Bytes) :
    ∃ m' ptr len, marshalValue m value = some (m', ptr, len) ∧ m.Extends m' ∧
      ∀ m'', m'.Extends m'' → borrowValue m'' ptr len = some (arrivedValue value) := by
  cases value with
  | none => exact ⟨m, none, -1, rfl, Heap.Extends.refl m, fun m'' _ => rfl⟩
  | some bytes =>
      by_cases hempty : bytes.length = 0
      · refine ⟨m, none, 0, by simp [marshalValue, hempty], Heap.Extends.refl m, fun m'' _ => ?_⟩
        rw [List.length_eq_zero_iff.mp hempty]
        rfl
      · have hlen : (bytes.map Cell.byte).length ≤ bytes.length := by simp
        obtain ⟨m', hwrite, hholds, hextends⟩ := Heap.alloc_write_spec m hlen
        refine ⟨m', some (m.alloc bytes.length).2, wrap 32 bytes.length, ?_, hextends, ?_⟩
        · simp only [marshalValue, if_neg hempty, Heap.storeBytes, hwrite, Option.map_some]
        · intro m'' hm''
          have hborrow := borrowValue_of_field (hm'' _ _ hholds)
          rwa [fieldPointer, if_neg hempty] at hborrow

/-- `marshalHeaders` passes a pair that decodes to the headers. -/
theorem marshalHeaders_spec (m : Heap) {headers : List BridgeHeader} (h : Packable headers) :
    ∃ m' ptr count, marshalHeaders m headers = some (m', ptr, count) ∧ m.Extends m' ∧
      (∀ a ∈ ptr, a = ⟨m.blocks.length, 0⟩ ∧ (m'.cell a).isSome) ∧
      ∀ m'', m'.Extends m'' →
        borrowHeaders m'' ptr count = some ((arrived headers).map arrivedHeader) := by
  by_cases hempty : headers.length = 0
  · refine ⟨m, none, 0, by simp [marshalHeaders, hempty], Heap.Extends.refl m, ?_, fun m'' _ => ?_⟩
    · intro a ha
      cases ha
    · rw [List.length_eq_zero_iff.mp hempty]
      rfl
  · obtain ⟨heap, hpack, hheld, hextends, hlive⟩ := packArena_spec m h
    refine ⟨heap, some ⟨m.blocks.length, 0⟩, wrap 32 headers.length, ?_, hextends, ?_, ?_⟩
    · rw [marshalHeaders, if_neg hempty, hpack, Option.map_some]
    · intro a ha
      obtain rfl := Option.some_inj.mp ha
      refine ⟨rfl, (hlive 0).mpr ?_⟩
      rw [headerSize]
      omega
    · intro m'' hm''
      have hheld'' := hheld.extends hm''
      simp only [borrowHeaders]
      by_cases hneg : wrap 32 headers.length ≤ 0
      · have hzero : (wrap 32 headers.length).toNat = 0 := by omega
        rw [if_pos hneg, arrived, hzero, List.take_zero, List.map_nil]
      · rw [if_neg hneg, borrowHeaderArray_of_held hheld'' (wrap_length_le headers), arrived]

/-- What the deferred frees of a call need. -/
structure Releasable (m : Heap) (args : RecordArgs) : Prop where
  key : args.key.offset = 0 ∧ (m.cell args.key).isSome
  headers : ∀ a ∈ args.headers,
    a.offset = 0 ∧ (m.cell a).isSome ∧ a.block ≠ args.key.block

/-- Packing a message and decoding the arguments, in whatever memory there is by then,
yields what arrives of it. -/
theorem borrowMessage_packRecord (valueOf : T → Option Bytes) (metaOf : T → RecordMeta)
    (m : Heap) (msg : Envelope T) (h : Packable (metaOf msg.payload).headers) :
    ∃ m' args, packRecord valueOf metaOf m msg = some (m', args) ∧ Releasable m' args ∧
      ∀ topic m'', m'.Extends m'' →
        borrowMessage m'' topic args = some (arrivedMessage valueOf metaOf topic msg) := by
  obtain ⟨m₁, hkeyRun, hkey, hkeyLive, -⟩ := cString_spec m msg.key
  obtain ⟨m₂, valuePtr, valueLen, hvalueRun, hextends₂, hvalue⟩ :=
    marshalValue_spec m₁ (valueOf msg.payload)
  obtain ⟨m₃, headersPtr, count, hheadersRun, hextends₃, hheadersPtr, hheaders⟩ :=
    marshalHeaders_spec m₂ h
  let args : RecordArgs := {
    key := ⟨m.blocks.length, 0⟩
    keyLen := wrap 32 msg.key.length
    value := valuePtr
    valueLen
    partition := wrap 32 msg.partition
    offset := msg.offset
    tsKind := (metaOf msg.payload).tsKind
    tsMillis := (metaOf msg.payload).tsMillis
    headers := headersPtr
    headerCount := count }
  have hrun : packRecord valueOf metaOf m msg = some (m₃, args) := by
    rw [packRecord, hkeyRun, Option.bind_some, hvalueRun, Option.bind_some, hheadersRun,
      Option.map_some]
  have hkeyLive₂ := hextends₂.live hkeyLive
  refine ⟨m₃, args, hrun, ⟨⟨rfl, hextends₃.live hkeyLive₂⟩, ?_⟩, ?_⟩
  · intro a ha
    obtain ⟨rfl, hlive⟩ := hheadersPtr a ha
    -- the key's block was there before the header block was allocated
    have hbefore := Heap.block_lt_of_cell hkeyLive₂
    exact ⟨rfl, hlive, fun heq => absurd (heq ▸ hbefore) (Nat.lt_irrefl _)⟩
  · intro topic m'' hm''
    have hkey'' := hm'' _ _ (hextends₃ _ _ (hextends₂ _ _ hkey))
    simp only [borrowMessage, args, hheaders m'' hm'', Option.bind_some,
      borrowBytes_of_holds hkey'', hvalue m'' (hextends₃.trans hm''), Option.map_some,
      arrivedMessage, wrap_of_fits msg.partition_fits]

end LlingrKafka.Wire
