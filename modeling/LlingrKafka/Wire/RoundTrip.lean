import LlingrKafka.Wire.Arrival

/-!
# Records survive the boundary

A franz record whose lengths fit C ints is delivered as it is (`Delivered`), to the
process handler and to the dead-letter handler alike.  For the arena behind its headers
the structs are read back once more, this time for the byte ranges they point to:
`placed` computes the ranges from the fields alone, and what the arena promises of its
ranges (`ArenaSound`) is proved of `placed`.
-/

namespace LlingrKafka.Wire

open FixedWidth Memory Utf8

/-! ## The ranges of an arena -/

/-- The byte strings of a header list, in the order `put` is called on them. -/
def arenaFields (headers : List BridgeHeader) : List Bytes :=
  headers.flatMap fun h => h.key :: h.value.toList

/-- The byte ranges a struct points to. -/
def HeaderRaw.ranges (h : HeaderRaw) : List (Address × ℤ) :=
  (h.key.toList.map fun a => (a, h.keyLen)) ++ h.value.toList.map fun a => (a, h.valueLen)

/-- The byte ranges the structs of an array point to. -/
def fieldRanges (m : Heap) (a : Address) : ℕ → Option (List (Address × ℤ))
  | 0 => some []
  | n + 1 =>
      (loadHeaderRaw m a).bind fun h =>
        (fieldRanges m (a.add headerSize) n).map fun rest => h.ranges ++ rest

/-- What holds of a packed arena. -/
structure ArenaSound (headers : List BridgeHeader) (arena : Arena) (s : Packing) : Prop where
  /-- The cursor ends at the end of the arena. -/
  cursor : s.cursor = arena.size
  /-- The allocated block is the structs and the arena's bytes. -/
  block : ∀ i, (s.heap.cell (arena.block.add i)).isSome ↔ i < arena.structsBytes + arena.size
  /-- There is one range for each non-empty field, in order, and it holds the field.  All
  ranges are inside the block behind the structs, and no two of them share a byte. -/
  ranges : ∃ ranges, fieldRanges s.heap arena.block headers.length = some ranges ∧
    (ranges.map fun r => s.heap.loadBytes r.1 r.2.toNat) =
      ((arenaFields headers).filter fun f => f.length ≠ 0).map some ∧
    (∀ r ∈ ranges, r.1.block = arena.block.block ∧ arena.structsBytes ≤ r.1.offset ∧
      r.1.offset + r.2.toNat ≤ arena.structsBytes + arena.size) ∧
    ranges.Pairwise fun r r' => Apart r.1 r.2.toNat r'.1 r'.2.toNat

/-- The ranges of fields that stand one after the other from `src` on. -/
def placed : Address → List Bytes → List (Address × ℤ)
  | _, [] => []
  | src, f :: rest =>
      ((fieldPointer src f).toList.map fun a => (a, wrap 32 f.length)) ++
        placed (src.add f.length) rest

/-- The bytes of fields that stand one after the other from `src` on. -/
def FieldsHeld (m : Heap) : Address → List Bytes → Prop
  | _, [] => True
  | src, f :: rest => m.Holds src (f.map .byte) ∧ FieldsHeld m (src.add f.length) rest

theorem placed_empty {src : Address} {f : Bytes} (rest : List Bytes) (h : f.length = 0) :
    placed src (f :: rest) = placed src rest := by
  simp [placed, fieldPointer, h]

theorem placed_cons {src : Address} {f : Bytes} (rest : List Bytes) (h : f.length ≠ 0) :
    placed src (f :: rest) = (src, wrap 32 f.length) :: placed (src.add f.length) rest := by
  simp [placed, fieldPointer, h]

theorem mem_placed {fields : List Bytes} :
    ∀ {src : Address} {r : Address × ℤ}, r ∈ placed src fields →
      r.1.block = src.block ∧ src.offset ≤ r.1.offset ∧
        r.1.offset + r.2.toNat ≤ src.offset + (fields.map List.length).sum := by
  induction fields with
  | nil =>
      intro src r hr
      cases hr
  | cons f rest ih =>
      intro src r hr
      rw [List.map_cons, List.sum_cons]
      by_cases hempty : f.length = 0
      · rw [placed_empty rest hempty] at hr
        obtain ⟨hblock, hlower, hupper⟩ := ih hr
        exact ⟨hblock, hlower, by omega⟩
      · rw [placed_cons rest hempty, List.mem_cons] at hr
        rcases hr with rfl | hr
        · have hle := wrap_length_le f
          exact ⟨rfl, Nat.le_refl _, by simp only; omega⟩
        · obtain ⟨hblock, hlower, hupper⟩ := ih hr
          rw [Address.add_offset] at hlower hupper
          exact ⟨hblock, by omega, by omega⟩

theorem pairwise_placed {fields : List Bytes} :
    ∀ {src : Address},
      (placed src fields).Pairwise fun r r' => Apart r.1 r.2.toNat r'.1 r'.2.toNat := by
  induction fields with
  | nil =>
      intro src
      exact .nil
  | cons f rest ih =>
      intro src
      by_cases hempty : f.length = 0
      · rw [placed_empty rest hempty]
        exact ih
      · rw [placed_cons rest hempty]
        refine .cons ?_ ih
        intro r' hr'
        have hlower := (mem_placed hr').2.1
        have hle := wrap_length_le f
        rw [Address.add_offset] at hlower
        apply apart_of_le
        simp only
        omega

/-- Every range holds its field, when the C int tells its whole length. -/
theorem loads_placed {m : Heap} {fields : List Bytes} (hlen : ∀ f ∈ fields, f.length < 2 ^ 31) :
    ∀ {src : Address}, FieldsHeld m src fields →
      ((placed src fields).map fun r => m.loadBytes r.1 r.2.toNat) =
        (fields.filter fun f => f.length ≠ 0).map some := by
  induction fields with
  | nil =>
      intro src _
      rfl
  | cons f rest ih =>
      intro src hheld
      have hrest := ih (fun f' hf' => hlen f' (List.mem_cons_of_mem f hf')) hheld.2
      by_cases hempty : f.length = 0
      · rw [placed_empty rest hempty, List.filter_cons_of_neg (by simp [hempty])]
        rwa [hempty, Address.add_zero] at hrest
      · have hwrap : wrap 32 f.length = f.length := wrap_length_of_lt (hlen f List.mem_cons_self)
        rw [placed_cons rest hempty, List.filter_cons_of_pos (by simp [hempty]), List.map_cons,
          List.map_cons, hrest, hwrap, Int.toNat_natCast, Heap.loadBytes_of_holds hheld.1]

theorem fieldsHeld_of_held {m : Heap} {headers : List BridgeHeader} :
    ∀ {struct src : Address}, HeadersHeld m struct src headers →
      FieldsHeld m src (arenaFields headers) ∧
        fieldRanges m struct headers.length = some (placed src (arenaFields headers)) := by
  induction headers with
  | nil =>
      intro struct src _
      exact ⟨trivial, rfl⟩
  | cons h rest ih =>
      rintro struct src ⟨hheld, hrestHeld⟩
      obtain ⟨hfields, hranges⟩ := ih hrestHeld
      have hvalue := hheld.value
      rw [List.length_cons, fieldRanges, loadHeaderRaw_of_held hheld, Option.bind_some, hranges,
        Option.map_some]
      unfold headerBytes at hfields ⊢
      unfold rawHeader
      cases hv : h.value with
      | none =>
          rw [hv] at hfields
          have hflat : arenaFields (h :: rest) = h.key :: arenaFields rest := by
            simp [arenaFields, hv]
          rw [hflat]
          exact ⟨⟨hheld.key.bytes, hfields⟩, by simp [placed, HeaderRaw.ranges, valueBytes]⟩
      | some value =>
          rw [hv] at hvalue hfields
          have hflat : arenaFields (h :: rest) = h.key :: value :: arenaFields rest := by
            simp [arenaFields, hv]
          rw [hflat]
          refine ⟨⟨hheld.key.bytes, hvalue.bytes, ?_⟩, ?_⟩
          · rw [Address.add_add]
            exact hfields
          · simp [placed, HeaderRaw.ranges, valueBytes]

theorem sum_arenaFields (headers : List BridgeHeader) :
    ((arenaFields headers).map List.length).sum = arenaBytes headers := by
  induction headers with
  | nil => rfl
  | cons h rest ih =>
      have hflat : arenaFields (h :: rest) = h.key :: (h.value.toList ++ arenaFields rest) := by
        simp [arenaFields]
      rw [hflat, arenaBytes_cons, ← ih, headerBytes]
      cases h.value <;> simp [valueBytes, Nat.add_assoc]

/-- The arena of a header list whose fields fit C ints. -/
theorem arenaSound (m : Heap) {headers : List BridgeHeader} (h : Packable headers)
    (hlen : ∀ f ∈ arenaFields headers, f.length < 2 ^ 31) :
    ∃ arena s, packArena m headers = some (arena, s) ∧ ArenaSound headers arena s := by
  obtain ⟨heap, hrun, hheld, -, hlive⟩ := packArena_spec m h
  obtain ⟨hfields, hranges⟩ := fieldsHeld_of_held hheld
  refine ⟨_, _, hrun, rfl, ?_, _, hranges, loads_placed hlen hfields, ?_, pairwise_placed⟩
  · intro i
    simpa [Address.add] using hlive i
  · intro r hr
    have hmem := mem_placed hr
    rwa [sum_arenaFields] at hmem

/-! ## The round trip -/

/-- A header on the host's side is the header of the record. -/
structure HeaderDelivered (sent : RecordHeader) (header : Header) : Prop where
  value : header.value = sent.value
  utf8 : (decode sent.key).isSome → encode header.key = sent.key
  notUtf8 : decode sent.key = none → header.key = ""

/-- The timestamp of a record, by the type the broker gives it. -/
def stampOf (timestampType millis : ℤ) : Timestamp :=
  if timestampType = 0 then .createTime millis
  else if timestampType = 1 then .logAppendTime millis
  else .notAvailable

/-- A message on the host's side is the record. -/
structure Delivered (topic : String) (msg : Envelope Record) (message : Message) : Prop where
  key : message.key = some msg.key
  value : message.value = msg.payload.value
  topic : message.topic = topic
  partition : message.partition = msg.partition
  offset : message.offset = msg.offset
  timestamp : message.timestamp =
    stampOf msg.payload.timestampType msg.payload.timestamp.unixMilli
  millis : ∀ millis, Fits 64 millis → msg.payload.timestamp = .ofUnixMilli millis →
    message.timestamp = stampOf msg.payload.timestampType millis
  headers : List.Forall₂ HeaderDelivered msg.payload.headers message.headers

/-- The lengths of a record are at most 2^31 - 1. -/
structure LengthsFit (msg : Envelope Record) : Prop where
  key : msg.key.length < 2 ^ 31
  value : ∀ v ∈ msg.payload.value, v.length < 2 ^ 31
  count : msg.payload.headers.length < 2 ^ 31
  headers : ∀ h ∈ msg.payload.headers, h.key.length < 2 ^ 31 ∧ ∀ v ∈ h.value, v.length < 2 ^ 31

theorem decodeTimestamp_franzMeta (r : Record) :
    decodeTimestamp (franzMeta r).tsKind (franzMeta r).tsMillis =
      stampOf r.timestampType r.timestamp.unixMilli := by
  unfold stampOf
  simp only [franzMeta, mapFranzTimestampType]
  by_cases hcreate : r.timestampType = 0
  · simp [hcreate, decodeTimestamp, tsCreateTime]
  · by_cases happend : r.timestampType = 1
    · simp [happend, decodeTimestamp, tsLogAppendTime]
    · simp [hcreate, happend, decodeTimestamp, tsNotAvailable]

theorem headerDelivered {h : RecordHeader} (hkey : h.key.length < 2 ^ 31)
    (hvalue : ∀ v ∈ h.value, v.length < 2 ^ 31) :
    HeaderDelivered h (arrivedHeader { key := h.key, value := h.value }) where
  value := arrivedValue_of_lt hvalue
  utf8 hsome := by
    obtain ⟨text, htext⟩ := Option.isSome_iff_exists.mp hsome
    rw [arrivedHeader, arrived_of_lt hkey, htext]
    exact encode_of_decode htext
  notUtf8 hnone := by
    rw [arrivedHeader, arrived_of_lt hkey, hnone]
    rfl

theorem headersDelivered {headers : List RecordHeader}
    (h : ∀ header ∈ headers, header.key.length < 2 ^ 31 ∧ ∀ v ∈ header.value, v.length < 2 ^ 31) :
    List.Forall₂ HeaderDelivered headers ((franzHeaders headers).map arrivedHeader) := by
  induction headers with
  | nil => exact .nil
  | cons header rest ih =>
      obtain ⟨hkey, hvalue⟩ := h header List.mem_cons_self
      exact .cons (headerDelivered hkey hvalue)
        (ih fun header' hmem => h header' (List.mem_cons_of_mem header hmem))

theorem delivered_arrivedMessage (topic : String) {msg : Envelope Record} (h : LengthsFit msg) :
    Delivered topic msg (arrivedMessage Record.value franzMeta topic msg) where
  key := by rw [arrivedMessage, arrived_of_lt h.key]
  value := arrivedValue_of_lt h.value
  topic := rfl
  partition := rfl
  offset := rfl
  timestamp := decodeTimestamp_franzMeta msg.payload
  millis millis hmillis hstamp := by
    rw [← Metrics.GoTime.unixMilli_ofUnixMilli hmillis, ← hstamp]
    exact decodeTimestamp_franzMeta msg.payload
  headers := by
    have hcount : (franzHeaders msg.payload.headers).length < 2 ^ 31 := by
      rw [franzHeaders, List.length_map]
      exact h.count
    simp only [arrivedMessage, franzMeta]
    rw [arrived_of_lt hcount]
    exact headersDelivered h.headers

theorem arenaBytes_le {headers : List BridgeHeader} {bound : ℕ}
    (h : ∀ header ∈ headers, headerBytes header ≤ bound) :
    arenaBytes headers ≤ headers.length * bound := by
  induction headers with
  | nil => simp
  | cons header rest ih =>
      have hheader := h header List.mem_cons_self
      have hrest := ih fun header' hmem => h header' (List.mem_cons_of_mem header hmem)
      rw [arenaBytes_cons, List.length_cons, Nat.succ_mul]
      omega

/-- A record whose lengths fit C ints has an arena that fits the address space. -/
theorem packable_of_lengthsFit {msg : Envelope Record} (h : LengthsFit msg) :
    Packable (franzHeaders msg.payload.headers) := by
  have hcount := h.count
  have hlen : (franzHeaders msg.payload.headers).length = msg.payload.headers.length :=
    List.length_map _
  have hbytes : arenaBytes (franzHeaders msg.payload.headers) ≤
      (franzHeaders msg.payload.headers).length * (2 ^ 32 - 2) := by
    apply arenaBytes_le
    intro header hmem
    obtain ⟨sent, hsent, rfl⟩ := List.mem_map.mp hmem
    obtain ⟨hkey, hvalue⟩ := h.headers sent hsent
    unfold headerBytes
    cases hv : sent.value with
    | none =>
        simp only [valueBytes]
        omega
    | some v =>
        have hlt := hvalue v hv
        simp only [valueBytes]
        omega
  rw [hlen] at hbytes
  have hproduct : msg.payload.headers.length * (2 ^ 32 - 2) ≤ (2 ^ 31 - 1) * (2 ^ 32 - 2) :=
    Nat.mul_le_mul_right _ (by omega)
  constructor
  · rw [hlen, headerSize]
    omega
  · omega

/-- A record crosses the boundary: both trampolines build a message that is the record,
and the arena of its headers is sound. -/
theorem record_roundTrip (m : Heap) (msg : Envelope Record) (hfit : LengthsFit msg) :
    (∃ m' args, packRecord Record.value franzMeta m msg = some (m', args) ∧
      ∀ h : HandlerSet, ∃ message, Delivered h.topic msg message ∧
        processCall (some h) m' args = some (processOutcome (h.process message)) ∧
        ∀ reason : Bytes, ∃ m'' errorMsg, cString m' reason = some (m'', errorMsg) ∧
          deadletterCall (some h) m'' args errorMsg (wrap 32 reason.length) =
            some (deadletterOutcome h.deadLetter message (decodeLossy (arrived reason)))) ∧
      ∀ m₀, ∃ arena s, packArena m₀ (franzHeaders msg.payload.headers) = some (arena, s) ∧
        ArenaSound (franzHeaders msg.payload.headers) arena s := by
  have hpackable := packable_of_lengthsFit hfit
  obtain ⟨m', args, hrun, -, hborrow⟩ := borrowMessage_packRecord Record.value franzMeta m msg
    hpackable
  refine ⟨⟨m', args, hrun, fun h => ⟨_, delivered_arrivedMessage h.topic hfit, ?_, ?_⟩⟩, ?_⟩
  · rw [processCall, hborrow h.topic m' (Heap.Extends.refl m'), Option.map_some]
  · intro reason
    obtain ⟨m'', hreason, hheld, -, hextends⟩ := cString_spec m' reason
    refine ⟨m'', _, hreason, ?_⟩
    rw [deadletterCall, borrowBytes_of_holds hheld, Option.bind_some,
      hborrow h.topic m'' hextends, Option.map_some]
  · intro m₀
    apply arenaSound m₀ hpackable
    intro f hf
    simp only [arenaFields, franzHeaders, List.mem_flatMap, List.mem_map, List.mem_cons,
      Option.mem_toList] at hf
    obtain ⟨_, ⟨sent, hsent, rfl⟩, hf⟩ := hf
    obtain ⟨hkey, hvalue⟩ := hfit.headers sent hsent
    rcases hf with rfl | hf
    · exact hkey
    · exact hvalue f hf

/-- A record with a null value, repeated and ill-formed keys, and null, empty and binary
header values. -/
def mixedRecord : Envelope Record where
  key := [107]
  partition := 3
  offset := 42
  payload := {
    value := none
    headers := [⟨[97], some [0, 255]⟩, ⟨[97], none⟩, ⟨[], some []⟩, ⟨[255], some [1]⟩]
    timestamp := .ofUnixMilli (-5)
    timestampType := 1 }
  partition_fits := by decide
  offset_fits := by decide
theorem record_roundTrip_mixedRecord :
    ∃ m' args, packRecord Record.value franzMeta ⟨[]⟩ mixedRecord = some (m', args) ∧
      ∀ h : HandlerSet, ∃ message, Delivered h.topic mixedRecord message ∧
        processCall (some h) m' args = some (processOutcome (h.process message)) := by
  have hfit : LengthsFit mixedRecord := ⟨by decide, by decide, by decide, by decide⟩
  obtain ⟨⟨m', args, hrun, hcalls⟩, -⟩ := record_roundTrip ⟨[]⟩ mixedRecord hfit
  refine ⟨m', args, hrun, fun h => ?_⟩
  obtain ⟨message, hdelivered, hprocess, -⟩ := hcalls h
  exact ⟨message, hdelivered, hprocess⟩

end LlingrKafka.Wire
