import LlingrKafka.Wire.Borrow

/-!
# The header arena

What `packHeaders` leaves in memory.  `HeadersHeld` says, header by header, that the
struct holds the pointers and lengths of its fields and that the bytes of the fields
stand one after the other from the cursor on.  The structs yet to be written lie below
the bytes yet to be copied, so what is held of one header survives the packing of the
next ones (`packHeaders_spec`).

The sizing loop wraps like a Go int does.  It is exact as soon as the arena fits the
address space (`Packable`), and then the cursor ends at the end of the arena.
-/

namespace LlingrKafka.Wire

open FixedWidth Memory Utf8

/-- The bytes of a value in the arena. -/
def valueBytes : Option Bytes → ℕ
  | none => 0
  | some value => value.length

/-- The bytes of a header in the arena. -/
def headerBytes (h : BridgeHeader) : ℕ := h.key.length + valueBytes h.value

/-- The bytes of a header list in the arena. -/
def arenaBytes (headers : List BridgeHeader) : ℕ := (headers.map headerBytes).sum

@[simp] theorem arenaBytes_nil : arenaBytes [] = 0 := rfl

@[simp] theorem arenaBytes_cons (h : BridgeHeader) (rest : List BridgeHeader) :
    arenaBytes (h :: rest) = headerBytes h + arenaBytes rest := rfl

/-- Neither the structs nor the bytes of a header list exceed the address space. -/
structure Packable (headers : List BridgeHeader) : Prop where
  structs : headers.length * headerSize < 2 ^ 63
  bytes : arenaBytes headers < 2 ^ 63

/-- The pointer `put` returns for bytes copied to `src`. -/
def fieldPointer (src : Address) (bytes : Bytes) : Pointer :=
  if bytes.length = 0 then none else some src

/-- The struct fields at `field` point to `bytes` at `src`. -/
structure FieldHeld (m : Heap) (field src : Address) (bytes : Bytes) : Prop where
  pointer : m.Holds field (pieces pointerSize (.pointer (fieldPointer src bytes)))
  len : m.Holds (field.add pointerSize) (pieces intSize (.int (wrap 32 bytes.length)))
  bytes : m.Holds src (bytes.map .byte)

/-- The struct fields at `field` hold a null value. -/
structure NullHeld (m : Heap) (field : Address) : Prop where
  pointer : m.Holds field (pieces pointerSize (.pointer none))
  len : m.Holds (field.add pointerSize) (pieces intSize (.int (-1)))

/-- The struct fields at `field` hold the value whose bytes, if any, are at `src`. -/
def ValueHeld (m : Heap) (field src : Address) : Option Bytes → Prop
  | none => NullHeld m field
  | some value => FieldHeld m field src value

/-- The struct at `struct` holds the header whose bytes start at `src`. -/
structure HeaderHeld (m : Heap) (struct src : Address) (h : BridgeHeader) : Prop where
  key : FieldHeld m struct src h.key
  value : ValueHeld m (struct.add valueField) (src.add h.key.length) h.value

/-- The structs from `struct` on hold the headers, whose bytes start at `src`. -/
def HeadersHeld (m : Heap) : Address → Address → List BridgeHeader → Prop
  | _, _, [] => True
  | struct, src, h :: rest =>
      HeaderHeld m struct src h ∧
        HeadersHeld m (struct.add headerSize) (src.add (headerBytes h)) rest

/-- What packing may touch: the structs and the bytes. -/
def Touched (struct : Address) (structBytes : ℕ) (src : Address) (bytes : ℕ) (x : Address) : Prop :=
  Within struct structBytes x ∨ Within src bytes x

/-- `n` bytes at `a` and `k` bytes at `b` have no byte in common. -/
def Apart (a : Address) (n : ℕ) (b : Address) (k : ℕ) : Prop :=
  ∀ x, Within a n x → ¬ Within b k x

theorem apart_of_le {a b : Address} {n k : ℕ} (h : a.offset + n ≤ b.offset) : Apart a n b k := by
  rintro x ⟨-, -, hlt⟩ ⟨-, hle, -⟩
  omega

/-! ## What is held stays held -/

/-- A pointer field and the length behind it. -/
theorem holds_field_of_agree {F : Address → Prop} {m m' : Heap} {field : Address} {p : Pointer}
    {n : ℤ} (hpointer : m.Holds field (pieces pointerSize (.pointer p)))
    (hlen : m.Holds (field.add pointerSize) (pieces intSize (.int n)))
    (hagree : Heap.Agree F m m') (hfield : ∀ x, Within field 12 x → ¬ F x) :
    m'.Holds field (pieces pointerSize (.pointer p)) ∧
      m'.Holds (field.add pointerSize) (pieces intSize (.int n)) := by
  refine ⟨hpointer.of_agree hagree ?_, hlen.of_agree hagree ?_⟩
  · rintro x ⟨hb, hlo, hhi⟩
    rw [length_pieces, pointerSize] at hhi
    exact hfield x ⟨hb, hlo, by omega⟩
  · rintro x ⟨hb, hlo, hhi⟩
    simp only [Address.add_offset, length_pieces, pointerSize, intSize] at hlo hhi
    exact hfield x ⟨hb, by omega, by omega⟩

theorem FieldHeld.of_agree {F : Address → Prop} {m m' : Heap} {field src : Address}
    {bytes : Bytes} (h : FieldHeld m field src bytes) (hagree : Heap.Agree F m m')
    (hfield : ∀ x, Within field 12 x → ¬ F x) (hbytes : ∀ x, Within src bytes.length x → ¬ F x) :
    FieldHeld m' field src bytes where
  pointer := (holds_field_of_agree h.pointer h.len hagree hfield).1
  len := (holds_field_of_agree h.pointer h.len hagree hfield).2
  bytes := by
    apply h.bytes.of_agree hagree
    intro x hx
    rw [List.length_map] at hx
    exact hbytes x hx

theorem NullHeld.of_agree {F : Address → Prop} {m m' : Heap} {field : Address}
    (h : NullHeld m field) (hagree : Heap.Agree F m m')
    (hfield : ∀ x, Within field 12 x → ¬ F x) : NullHeld m' field where
  pointer := (holds_field_of_agree h.pointer h.len hagree hfield).1
  len := (holds_field_of_agree h.pointer h.len hagree hfield).2

theorem ValueHeld.of_agree {F : Address → Prop} {m m' : Heap} {field src : Address}
    {value : Option Bytes} (h : ValueHeld m field src value) (hagree : Heap.Agree F m m')
    (hfield : ∀ x, Within field 12 x → ¬ F x)
    (hbytes : ∀ x, Within src (valueBytes value) x → ¬ F x) : ValueHeld m' field src value := by
  cases value with
  | none => exact NullHeld.of_agree h hagree hfield
  | some value => exact FieldHeld.of_agree h hagree hfield hbytes

theorem HeaderHeld.of_agree {F : Address → Prop} {m m' : Heap} {struct src : Address}
    {h : BridgeHeader} (hheld : HeaderHeld m struct src h) (hagree : Heap.Agree F m m')
    (hstruct : ∀ x, Within struct headerSize x → ¬ F x)
    (hbytes : ∀ x, Within src (headerBytes h) x → ¬ F x) : HeaderHeld m' struct src h where
  key := by
    apply hheld.key.of_agree hagree
    · rintro x ⟨hb, hlo, hhi⟩
      exact hstruct x ⟨hb, hlo, by rw [headerSize]; omega⟩
    · rintro x ⟨hb, hlo, hhi⟩
      exact hbytes x ⟨hb, hlo, by rw [headerBytes]; omega⟩
  value := by
    apply hheld.value.of_agree hagree
    · rintro x ⟨hb, hlo, hhi⟩
      simp only [Address.add_offset, valueField] at hlo hhi
      exact hstruct x ⟨hb, by omega, by rw [headerSize]; omega⟩
    · rintro x ⟨hb, hlo, hhi⟩
      rw [Address.add_offset] at hlo hhi
      exact hbytes x ⟨hb, by omega, by rw [headerBytes]; omega⟩

theorem HeadersHeld.extends {m m' : Heap} (hextends : m.Extends m')
    {headers : List BridgeHeader} :
    ∀ {struct src : Address}, HeadersHeld m struct src headers →
      HeadersHeld m' struct src headers := by
  have hfield : ∀ {field src : Address} {bytes : Bytes}, FieldHeld m field src bytes →
      FieldHeld m' field src bytes := fun h =>
    ⟨hextends _ _ h.pointer, hextends _ _ h.len, hextends _ _ h.bytes⟩
  induction headers with
  | nil =>
      intro struct src _
      trivial
  | cons h rest ih =>
      rintro struct src ⟨hheld, hrest⟩
      refine ⟨⟨hfield hheld.key, ?_⟩, ih hrest⟩
      have hvalue := hheld.value
      cases hv : h.value with
      | none =>
          rw [hv] at hvalue
          exact ⟨hextends _ _ hvalue.pointer, hextends _ _ hvalue.len⟩
      | some value =>
          rw [hv] at hvalue
          exact hfield hvalue

/-! ## Packing -/

theorem storeField_spec {m : Heap} {a : Address} (p : Pointer) (len : ℤ) (hroom : m.Room a 12) :
    ∃ m', storeField m a p len = some m' ∧ m'.Holds a (pieces pointerSize (.pointer p)) ∧
      m'.Holds (a.add pointerSize) (pieces intSize (.int len)) ∧
      Heap.Agree (Within a 12) m m' := by
  have hroom₁ : m.Room a (pieces pointerSize (.pointer p)).length := by
    rw [length_pieces]
    exact hroom.take (by decide)
  obtain ⟨m₁, hwrite₁, hpointer, hagree₁⟩ := Heap.write_spec hroom₁
  have hroom₂ : m₁.Room (a.add pointerSize) (pieces intSize (.int len)).length := by
    rw [length_pieces]
    exact (hroom.sub (by decide)).of_agree hagree₁
  obtain ⟨m₂, hwrite₂, hlen, hagree₂⟩ := Heap.write_spec hroom₂
  refine ⟨m₂, ?_, ?_, hlen, ?_⟩
  · rw [storeField, Heap.storeScalar, hwrite₁, Option.bind_some, Heap.storeScalar, hwrite₂]
  · exact hpointer.of_agree hagree₂ (apart_of_le (by simp))
  · rw [length_pieces] at hagree₁ hagree₂
    apply (hagree₁.mono _).trans (hagree₂.mono _)
    · rintro x ⟨hb, hlo, hhi⟩
      rw [pointerSize] at hhi
      exact ⟨hb, hlo, by omega⟩
    · rintro x ⟨hb, hlo, hhi⟩
      simp only [Address.add_offset, pointerSize, intSize] at hlo hhi
      exact ⟨hb, by omega, by omega⟩

/-- `put` copies inside the arena and moves the cursor by what it copied. -/
theorem putField_spec {arena : Arena} {field dst : Address} {s : Packing} (src : Bytes)
    (hdst : dst = arena.block.add (arena.structsBytes + s.cursor))
    (hfield : s.heap.Room field 12) (hfits : s.cursor + src.length ≤ arena.size)
    (hroom : s.heap.Room dst src.length) (hapart : Apart dst src.length field 12) :
    ∃ heap, putField arena field s src = some ⟨heap, s.cursor + src.length⟩ ∧
      FieldHeld heap field dst src ∧
      Heap.Agree (Touched field 12 dst src.length) s.heap heap := by
  by_cases hempty : src.length = 0
  · obtain ⟨heap, hstore, hpointer, hlen, hagree⟩ := storeField_spec none 0 hfield
    refine ⟨heap, ?_, ⟨?_, ?_, ?_⟩, hagree.mono fun x hx => Or.inl hx⟩
    · rw [putField, if_pos hempty, hstore, Option.map_some, hempty, Nat.add_zero]
    · rw [fieldPointer, if_pos hempty]
      exact hpointer
    · rw [hempty]
      exact hlen
    · intro i hi
      rw [List.length_map] at hi
      omega
  · have hroom' : s.heap.Room dst (src.map Cell.byte).length := by rwa [List.length_map]
    obtain ⟨copied, hcopy, hbytes, hcopied⟩ := Heap.write_spec hroom'
    rw [List.length_map] at hcopied
    obtain ⟨heap, hstore, hpointer, hlen, hagree⟩ :=
      storeField_spec (some dst) (wrap 32 src.length) (hfield.of_agree hcopied)
    refine ⟨heap, ?_, ⟨?_, hlen, ?_⟩, ?_⟩
    · simp only [putField, if_neg hempty, if_pos hfits, ← hdst, Heap.storeBytes, hcopy,
        Option.bind_some, hstore, Option.map_some]
    · rwa [fieldPointer, if_neg hempty]
    · apply hbytes.of_agree hagree
      rwa [List.length_map]
    · exact (hcopied.mono fun x hx => Or.inr hx).trans (hagree.mono fun x hx => Or.inl hx)

/-- One round of the packing loop. -/
theorem packHeader_spec {arena : Arena} {struct dst : Address} {s : Packing} (h : BridgeHeader)
    (hdst : dst = arena.block.add (arena.structsBytes + s.cursor))
    (hstruct : s.heap.Room struct headerSize) (hfits : s.cursor + headerBytes h ≤ arena.size)
    (hroom : s.heap.Room dst (headerBytes h)) (hbelow : struct.offset + headerSize ≤ dst.offset) :
    ∃ heap, packHeader arena struct s h = some ⟨heap, s.cursor + headerBytes h⟩ ∧
      HeaderHeld heap struct dst h ∧
      Heap.Agree (Touched struct headerSize dst (headerBytes h)) s.heap heap := by
  have hheader : h.key.length + valueBytes h.value = headerBytes h := rfl
  rw [headerSize] at hbelow
  obtain ⟨heap₁, hput, hkey, hagree₁⟩ := putField_spec h.key hdst
    (hstruct.take (by decide)) (by omega) (hroom.take (by omega))
    (fun x hx hx' => apart_of_le (by omega) x hx' hx)
  have hvalueRoom : heap₁.Room (struct.add valueField) 12 :=
    (hstruct.sub (by decide)).of_agree hagree₁
  -- both cases of the value write the same two fields and the bytes behind the key
  have hvalue : ∃ heap₂,
      ((putField arena struct s h.key).bind fun s' =>
        match h.value with
        | none =>
            (storeField s'.heap (struct.add valueField) none (-1)).map fun heap => { s' with heap }
        | some value => putField arena (struct.add valueField) s' value) =
        some ⟨heap₂, s.cursor + headerBytes h⟩ ∧
      ValueHeld heap₂ (struct.add valueField) (dst.add h.key.length) h.value ∧
      Heap.Agree
        (Touched (struct.add valueField) 12 (dst.add h.key.length) (valueBytes h.value))
        heap₁ heap₂ := by
    rw [hput, Option.bind_some]
    cases hv : h.value with
    | none =>
        obtain ⟨heap₂, hstore, hpointer, hlen, hagree₂⟩ := storeField_spec none (-1) hvalueRoom
        refine ⟨heap₂, ?_, ⟨hpointer, hlen⟩, hagree₂.mono fun x hx => Or.inl hx⟩
        simp only [hstore, Option.map_some, headerBytes, hv, valueBytes, Nat.add_zero]
    | some value =>
        rw [hv] at hheader
        have hheader' : h.key.length + value.length = headerBytes h := hheader
        have hdst' : dst.add h.key.length =
            arena.block.add (arena.structsBytes + (s.cursor + h.key.length)) := by
          simp [hdst, Address.add, Nat.add_assoc]
        obtain ⟨heap₂, hput₂, hheld₂, hagree₂⟩ := putField_spec (s := ⟨heap₁, _⟩) value hdst'
          hvalueRoom (by simp only; omega) ((hroom.sub (by omega)).of_agree hagree₁)
          (fun x hx hx' =>
            apart_of_le (by simp only [Address.add_offset, valueField]; omega) x hx' hx)
        refine ⟨heap₂, ?_, hheld₂, hagree₂⟩
        rw [← hheader', ← Nat.add_assoc]
        exact hput₂
  obtain ⟨heap₂, hrun, hvalueHeld, hagree₂⟩ := hvalue
  refine ⟨heap₂, hrun, ⟨?_, hvalueHeld⟩, ?_⟩
  · apply hkey.of_agree hagree₂
    · rintro x ⟨-, hlo, hhi⟩ (⟨-, hlo', -⟩ | ⟨-, hlo', -⟩)
      · simp only [Address.add_offset, valueField] at hlo'
        omega
      · rw [Address.add_offset] at hlo'
        omega
    · rintro x ⟨-, hlo, hhi⟩ (⟨-, hlo', hhi'⟩ | ⟨-, hlo', -⟩)
      · simp only [Address.add_offset, valueField] at hhi'
        omega
      · rw [Address.add_offset] at hlo'
        omega
  · apply (hagree₁.mono _).trans (hagree₂.mono _)
    · rintro x (⟨hb, hlo, hhi⟩ | ⟨hb, hlo, hhi⟩)
      · exact Or.inl ⟨hb, hlo, by rw [headerSize]; omega⟩
      · exact Or.inr ⟨hb, hlo, by omega⟩
    · rintro x (⟨hb, hlo, hhi⟩ | ⟨hb, hlo, hhi⟩)
      · simp only [Address.add_offset, valueField] at hlo hhi
        exact Or.inl ⟨hb, by omega, by rw [headerSize]; omega⟩
      · rw [Address.add_offset] at hlo hhi
        exact Or.inr ⟨hb, by omega, by omega⟩

/-- The packing loop fills the arena from the cursor on. -/
theorem packHeaders_spec {arena : Arena} {headers : List BridgeHeader} :
    ∀ {struct dst : Address} {s : Packing},
      dst = arena.block.add (arena.structsBytes + s.cursor) →
      s.heap.Room struct (headers.length * headerSize) →
      s.cursor + arenaBytes headers ≤ arena.size → s.heap.Room dst (arenaBytes headers) →
      struct.offset + headers.length * headerSize ≤ dst.offset →
      ∃ heap, packHeaders arena struct s headers = some ⟨heap, s.cursor + arenaBytes headers⟩ ∧
        HeadersHeld heap struct dst headers ∧
        Heap.Agree (Touched struct (headers.length * headerSize) dst (arenaBytes headers))
          s.heap heap := by
  induction headers with
  | nil =>
      intro struct dst s _ _ _ _ _
      exact ⟨s.heap, rfl, trivial, Heap.Agree.refl _ _⟩
  | cons h rest ih =>
      intro struct dst s hdst hstructs hfits hroom hbelow
      rw [arenaBytes_cons] at hfits hroom ⊢
      rw [List.length_cons, Nat.succ_mul] at hstructs hbelow ⊢
      -- the first header, then the rest from the advanced cursor
      obtain ⟨heap₁, hpack, hheld, hagree₁⟩ := packHeader_spec h hdst
        (hstructs.take (by omega)) (by omega) (hroom.take (by omega)) (by omega)
      have hdst' : dst.add (headerBytes h) =
          arena.block.add (arena.structsBytes + (s.cursor + headerBytes h)) := by
        simp [hdst, Address.add, Nat.add_assoc]
      have hbelow' : (struct.add headerSize).offset + rest.length * headerSize ≤
          (dst.add (headerBytes h)).offset := by
        simp only [Address.add_offset]
        omega
      obtain ⟨heap₂, hrest, hrestHeld, hagree₂⟩ := ih (s := ⟨heap₁, _⟩) hdst'
        ((hstructs.sub (by omega)).of_agree hagree₁) (by simp only; omega)
        ((hroom.sub (by omega)).of_agree hagree₁) hbelow'
      refine ⟨heap₂, ?_, ⟨?_, hrestHeld⟩, ?_⟩
      · rw [packHeaders, hpack, Option.bind_some, hrest, Nat.add_assoc]
      -- the rest is written behind the first struct and behind its bytes
      · apply hheld.of_agree hagree₂
        · rintro x ⟨-, hlo, hhi⟩ (⟨-, hlo', -⟩ | ⟨-, hlo', -⟩)
          · rw [Address.add_offset] at hlo'
            omega
          · rw [Address.add_offset] at hlo'
            omega
        · rintro x ⟨-, hlo, hhi⟩ (⟨-, -, hhi'⟩ | ⟨-, hlo', -⟩)
          · rw [Address.add_offset] at hhi'
            omega
          · rw [Address.add_offset] at hlo'
            omega
      · apply (hagree₁.mono _).trans (hagree₂.mono _)
        · rintro x (⟨hb, hlo, hhi⟩ | ⟨hb, hlo, hhi⟩)
          · exact Or.inl ⟨hb, hlo, by omega⟩
          · exact Or.inr ⟨hb, hlo, by omega⟩
        · rintro x (⟨hb, hlo, hhi⟩ | ⟨hb, hlo, hhi⟩)
          · rw [Address.add_offset] at hlo hhi
            exact Or.inl ⟨hb, by omega, by omega⟩
          · rw [Address.add_offset] at hlo hhi
            exact Or.inr ⟨hb, by omega, by omega⟩

/-! ## The size of the arena -/

theorem sizeHeader_wrap (x : ℤ) (h : BridgeHeader) :
    sizeHeader (wrap 64 x) h = wrap 64 (x + headerBytes h) := by
  unfold sizeHeader headerBytes
  cases h.value with
  | none => simp only [wrap_wrap_add, valueBytes, Nat.add_zero]
  | some value =>
      simp only [wrap_wrap_add, valueBytes]
      rw [Int.natCast_add, Int.add_assoc]

theorem foldl_sizeHeader (headers : List BridgeHeader) :
    ∀ x : ℤ, headers.foldl sizeHeader (wrap 64 x) = wrap 64 (x + arenaBytes headers) := by
  induction headers with
  | nil =>
      intro x
      simp
  | cons h rest ih =>
      intro x
      rw [List.foldl_cons, arenaBytes_cons, sizeHeader_wrap, ih, Int.natCast_add, Int.add_assoc]

theorem arenaTotal_eq (headers : List BridgeHeader) :
    arenaTotal headers =
      wrap 64 ((headers.length * headerSize + arenaBytes headers : ℕ) : ℤ) := by
  rw [arenaTotal, foldl_sizeHeader, Int.natCast_add]

/-- What `malloc` is asked for is what the structs and the bytes take. -/
theorem sizeT_arenaTotal {headers : List BridgeHeader} (h : Packable headers) :
    sizeT (arenaTotal headers) = headers.length * headerSize + arenaBytes headers := by
  have hstructs := h.structs
  have hbytes := h.bytes
  have hmod : arenaTotal headers % 2 ^ 64 =
      ((headers.length * headerSize + arenaBytes headers : ℕ) : ℤ) % 2 ^ 64 := by
    rw [arenaTotal_eq]
    exact Int.bmod_emod
  rw [sizeT, hmod]
  omega

/-- The length of `bytes` is what the bytes take. -/
theorem arenaTotal_sub_structs {headers : List BridgeHeader} (h : Packable headers) :
    wrap 64 (arenaTotal headers - (headers.length * headerSize : ℕ)) = arenaBytes headers := by
  have hbytes := h.bytes
  rw [arenaTotal_eq, Int.sub_eq_add_neg, wrap_wrap_add]
  have hsum : ((headers.length * headerSize + arenaBytes headers : ℕ) : ℤ) +
      -((headers.length * headerSize : ℕ) : ℤ) = arenaBytes headers := by
    omega
  rw [hsum]
  exact wrap_of_fits ⟨by omega, by omega⟩

/-- The arena of a header list that fits the address space: the structs, then every
byte of every field, and the cursor at its end. -/
theorem packArena_spec (m : Heap) {headers : List BridgeHeader} (h : Packable headers) :
    ∃ heap, packArena m headers =
        some (⟨⟨m.blocks.length, 0⟩, headers.length * headerSize, arenaBytes headers⟩,
          ⟨heap, arenaBytes headers⟩) ∧
      HeadersHeld heap ⟨m.blocks.length, 0⟩ ⟨m.blocks.length, headers.length * headerSize⟩
        headers ∧ m.Extends heap ∧
      ∀ i, (heap.cell ⟨m.blocks.length, i⟩).isSome ↔
        i < headers.length * headerSize + arenaBytes headers := by
  have hroom := Heap.room_alloc m (sizeT (arenaTotal headers))
  rw [sizeT_arenaTotal h] at hroom
  have hblock : (m.alloc (headers.length * headerSize + arenaBytes headers)).2 =
      ⟨m.blocks.length, 0⟩ := rfl
  rw [hblock] at hroom
  let arena : Arena := ⟨⟨m.blocks.length, 0⟩, headers.length * headerSize, arenaBytes headers⟩
  have hdst : (⟨m.blocks.length, headers.length * headerSize⟩ : Address) =
      arena.block.add (arena.structsBytes + 0) := by
    simp [arena, Address.add]
  have hbytes : (m.alloc (headers.length * headerSize + arenaBytes headers)).1.Room
      ⟨m.blocks.length, headers.length * headerSize⟩ (arenaBytes headers) := by
    have hsub := hroom.sub (Nat.le_refl (headers.length * headerSize + arenaBytes headers))
    simpa [Heap.alloc, Address.add] using hsub
  have hbelow : (⟨m.blocks.length, 0⟩ : Address).offset + headers.length * headerSize ≤
      headers.length * headerSize := by simp
  obtain ⟨heap, hpack, hheld, hagree⟩ := packHeaders_spec
    (s := ⟨(m.alloc (headers.length * headerSize + arenaBytes headers)).1, 0⟩) hdst
    (hroom.take (by omega)) (by simp [arena]) hbytes hbelow
  refine ⟨heap, ?_, hheld, ?_, ?_⟩
  · have hsize : ¬ (arenaBytes headers : ℤ) < 0 := by omega
    simp only [packArena, sizeT_arenaTotal h, arenaTotal_sub_structs h, if_neg hsize,
      Int.toNat_natCast]
    simp only [arena, Nat.zero_add] at hpack
    rw [hblock, hpack, Option.map_some]
  · apply Heap.extends_of_alloc hagree
    rintro x (⟨hb, -⟩ | ⟨hb, -⟩)
    · exact hb
    · exact hb
  · intro i
    rw [hagree.live, Heap.cell_alloc]
    simp

end LlingrKafka.Wire
