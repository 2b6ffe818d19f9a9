import Mathlib.Data.List.Basic
import Mathlib.Data.Int.Notation
import Mathlib.Data.Nat.Notation
import Mathlib.Tactic.Common

/-!
# Block memory

Memory as a C program sees it: blocks that are allocated and freed, and pointers
into them.  A cell of a block is unwritten, a plain byte, or one byte of a scalar
(a pointer or an integer) that was stored as a whole, so a scalar is read back only
through a load of its own width at its own address.

`none` is undefined behaviour: an access outside a live block, a read of unwritten
memory, a second free.  What a program knows of memory is stated with `Holds`
("these cells are at this address") and `Room` ("this range may be written").  A
store establishes `Holds` for its range and leaves every other cell alone
(`write_spec`), so a `Holds` survives it when its range does not meet the store's
(`Holds.of_agree`).
-/

namespace Memory

/-- A byte of a block. -/
structure Address where
  block : ℕ
  offset : ℕ
  deriving DecidableEq, Repr

/-- A C pointer, null or an address. -/
abbrev Pointer := Option Address

/-- What fills several bytes at once. -/
inductive Scalar
  | pointer (p : Pointer)
  | int (x : ℤ)
  deriving DecidableEq, Repr

/-- One byte of memory. -/
inductive Cell
  | uninit
  | byte (b : UInt8)
  | piece (v : Scalar) (index : ℕ)
  deriving DecidableEq, Repr

/-- The blocks, in the order of their allocation; a freed block is `none`. -/
structure Heap where
  blocks : List (Option (List Cell))
  deriving DecidableEq, Repr

/-- The address `n` bytes on. -/
def Address.add (a : Address) (n : ℕ) : Address := ⟨a.block, a.offset + n⟩

@[simp] theorem Address.add_block (a : Address) (n : ℕ) : (a.add n).block = a.block := rfl

@[simp] theorem Address.add_offset (a : Address) (n : ℕ) :
    (a.add n).offset = a.offset + n := rfl

@[simp] theorem Address.add_zero (a : Address) : a.add 0 = a := rfl

@[simp] theorem Address.add_add (a : Address) (m n : ℕ) : (a.add m).add n = a.add (m + n) := by
  simp [Address.add, Nat.add_assoc]

/-- `x` is one of the `n` bytes at `a`. -/
def Within (a : Address) (n : ℕ) (x : Address) : Prop :=
  x.block = a.block ∧ a.offset ≤ x.offset ∧ x.offset < a.offset + n

instance (a : Address) (n : ℕ) (x : Address) : Decidable (Within a n x) :=
  inferInstanceAs (Decidable (_ ∧ _))

namespace Heap

/-! ## Operations -/

/-- The cell at an address of a live block. -/
def cell (m : Heap) (a : Address) : Option Cell :=
  m.blocks[a.block]?.join.bind (·[a.offset]?)

/-- Overwrite one cell. -/
def setCell (m : Heap) (a : Address) (c : Cell) : Option Heap :=
  match m.blocks[a.block]? with
  | some (some cells) =>
      if a.offset < cells.length then
        some ⟨m.blocks.set a.block (some (cells.set a.offset c))⟩
      else none
  | _ => none

/-- Overwrite the cells from `a` on. -/
def write (m : Heap) (a : Address) : List Cell → Option Heap
  | [] => some m
  | c :: rest => (m.setCell a c).bind fun m' => m'.write (a.add 1) rest

/-- Read `n` cells. -/
def read (m : Heap) (a : Address) : ℕ → Option (List Cell)
  | 0 => some []
  | n + 1 => (m.cell a).bind fun c => (m.read (a.add 1) n).map (c :: ·)

/-- `malloc`: a new block, and its first byte. -/
def alloc (m : Heap) (size : ℕ) : Heap × Address :=
  (⟨m.blocks ++ [some (List.replicate size .uninit)]⟩, ⟨m.blocks.length, 0⟩)

/-- `free`. -/
def free (m : Heap) (a : Address) : Option Heap :=
  match m.blocks[a.block]? with
  | some (some _) => if a.offset = 0 then some ⟨m.blocks.set a.block none⟩ else none
  | _ => none

/-- `free` of a pointer that may be null. -/
def freePointer (m : Heap) : Pointer → Option Heap
  | none => some m
  | some a => m.free a

end Heap

/-- The byte a cell holds. -/
def Cell.toByte : Cell → Option UInt8
  | .byte b => some b
  | _ => none

/-- The cells of a scalar that is `width` bytes wide. -/
def pieces (width : ℕ) (v : Scalar) : List Cell := (List.range width).map (.piece v)

@[simp] theorem length_pieces (width : ℕ) (v : Scalar) : (pieces width v).length = width := by
  simp [pieces]

theorem pieces_succ (width : ℕ) (v : Scalar) :
    pieces (width + 1) v = .piece v 0 :: (List.range width).map fun i => .piece v (i + 1) := by
  simp [pieces, List.range_succ_eq_map, Function.comp_def]

namespace Heap

def storeBytes (m : Heap) (a : Address) (bytes : List UInt8) : Option Heap :=
  m.write a (bytes.map .byte)

def loadBytes (m : Heap) (a : Address) (n : ℕ) : Option (List UInt8) :=
  (m.read a n).bind fun cells => cells.mapM Cell.toByte

def storeScalar (m : Heap) (a : Address) (width : ℕ) (v : Scalar) : Option Heap :=
  m.write a (pieces width v)

def loadScalar (m : Heap) (a : Address) (width : ℕ) : Option Scalar :=
  (m.read a width).bind fun
    | .piece v i :: rest => if .piece v i :: rest = pieces width v then some v else none
    | _ => none

def loadPointer (m : Heap) (a : Address) (width : ℕ) : Option Pointer :=
  (m.loadScalar a width).bind fun
    | .pointer p => some p
    | .int _ => none

def loadInt (m : Heap) (a : Address) (width : ℕ) : Option ℤ :=
  (m.loadScalar a width).bind fun
    | .int x => some x
    | .pointer _ => none

/-! ## Knowing what is in memory -/

/-- The cells are at `a`. -/
def Holds (m : Heap) (a : Address) (cells : List Cell) : Prop :=
  ∀ i < cells.length, m.cell (a.add i) = cells[i]?

/-- The `n` bytes at `a` are in a live block. -/
def Room (m : Heap) (a : Address) (n : ℕ) : Prop := ∀ i < n, (m.cell (a.add i)).isSome

/-- The two memories have the same cells, and differ at most inside `F`. -/
structure Agree (F : Address → Prop) (m m' : Heap) : Prop where
  same : ∀ x, ¬ F x → m'.cell x = m.cell x
  live : ∀ x, (m'.cell x).isSome = (m.cell x).isSome

theorem Agree.refl (F : Address → Prop) (m : Heap) : Agree F m m :=
  ⟨fun _ _ => rfl, fun _ => rfl⟩

theorem Agree.trans {F : Address → Prop} {m₁ m₂ m₃ : Heap} (h₁ : Agree F m₁ m₂)
    (h₂ : Agree F m₂ m₃) : Agree F m₁ m₃ where
  same x hx := (h₂.same x hx).trans (h₁.same x hx)
  live x := (h₂.live x).trans (h₁.live x)

theorem Agree.mono {F G : Address → Prop} {m m' : Heap} (h : Agree F m m')
    (hFG : ∀ x, F x → G x) : Agree G m m' where
  same x hx := h.same x fun hF => hx (hFG x hF)
  live := h.live

theorem Room.of_agree {F : Address → Prop} {m m' : Heap} {a : Address} {n : ℕ}
    (hroom : m.Room a n) (h : Agree F m m') : m'.Room a n := by
  intro i hi
  rw [h.live]
  exact hroom i hi

theorem Holds.of_agree {F : Address → Prop} {m m' : Heap} {a : Address} {cells : List Cell}
    (hholds : m.Holds a cells) (h : Agree F m m')
    (hapart : ∀ x, Within a cells.length x → ¬ F x) : m'.Holds a cells := by
  intro i hi
  rw [h.same]
  · exact hholds i hi
  · apply hapart
    exact ⟨rfl, by simp, by simpa using hi⟩

theorem Room.sub {m : Heap} {a : Address} {n k count : ℕ} (hroom : m.Room a n)
    (hle : k + count ≤ n) : m.Room (a.add k) count := by
  intro i hi
  rw [Address.add_add]
  exact hroom (k + i) (by omega)

theorem Room.take {m : Heap} {a : Address} {n count : ℕ} (hroom : m.Room a n)
    (hle : count ≤ n) : m.Room a count := by
  intro i hi
  exact hroom i (by omega)

theorem Holds.left {m : Heap} {a : Address} {first second : List Cell}
    (h : m.Holds a (first ++ second)) : m.Holds a first := by
  intro i hi
  rw [h i (by rw [List.length_append]; omega), List.getElem?_append_left hi]

theorem Holds.right {m : Heap} {a : Address} {first second : List Cell}
    (h : m.Holds a (first ++ second)) : m.Holds (a.add first.length) second := by
  intro i hi
  rw [Address.add_add, h _ (by rw [List.length_append]; omega),
    List.getElem?_append_right (by omega), Nat.add_sub_cancel_left]

/-! ## Reading -/

theorem read_of_holds {m : Heap} {cells : List Cell} :
    ∀ {a : Address}, m.Holds a cells → m.read a cells.length = some cells := by
  induction cells with
  | nil =>
      intro a _
      rfl
  | cons c rest ih =>
      intro a h
      have hfirst : m.cell a = some c := h 0 (by simp)
      have happend : m.Holds a ([c] ++ rest) := h
      have hrest : m.Holds (a.add 1) rest := happend.right
      rw [List.length_cons, read, hfirst, Option.bind_some, ih hrest, Option.map_some]

theorem loadBytes_of_holds {m : Heap} {a : Address} {bytes : List UInt8}
    (h : m.Holds a (bytes.map .byte)) : m.loadBytes a bytes.length = some bytes := by
  have hread : m.read a bytes.length = some (bytes.map .byte) := by
    simpa using read_of_holds h
  have hbytes : ∀ bs : List UInt8, (bs.map Cell.byte).mapM Cell.toByte = some bs := by
    intro bs
    induction bs with
    | nil => rfl
    | cons b rest ih => simp [Cell.toByte, ih]
  rw [loadBytes, hread, Option.bind_some, hbytes]

theorem loadScalar_of_holds {m : Heap} {a : Address} (width : ℕ) {v : Scalar}
    (h : m.Holds a (pieces (width + 1) v)) : m.loadScalar a (width + 1) = some v := by
  have hread : m.read a (width + 1) = some (pieces (width + 1) v) := by
    simpa using read_of_holds h
  rw [loadScalar, hread, Option.bind_some, pieces_succ]
  simp [pieces_succ]

theorem loadPointer_of_holds {m : Heap} {a : Address} (width : ℕ) {p : Pointer}
    (h : m.Holds a (pieces (width + 1) (.pointer p))) :
    m.loadPointer a (width + 1) = some p := by
  rw [loadPointer, loadScalar_of_holds width h, Option.bind_some]

theorem loadInt_of_holds {m : Heap} {a : Address} (width : ℕ) {x : ℤ}
    (h : m.Holds a (pieces (width + 1) (.int x))) : m.loadInt a (width + 1) = some x := by
  rw [loadInt, loadScalar_of_holds width h, Option.bind_some]

/-! ## Writing -/

theorem cell_setCell {m m' : Heap} {a : Address} {c : Cell} (h : m.setCell a c = some m')
    (x : Address) : m'.cell x = if x = a then some c else m.cell x := by
  unfold setCell at h
  split at h
  · rename_i cells hblock
    split at h
    · rename_i hlt
      obtain rfl := Option.some_inj.mp h
      obtain ⟨b, o⟩ := x
      obtain ⟨b', o'⟩ := a
      simp only [cell, Address.mk.injEq] at hblock hlt ⊢
      by_cases hb : b = b'
      · subst hb
        have hin : b < m.blocks.length := (List.getElem?_eq_some_iff.mp hblock).1
        by_cases ho : o = o'
        · subst ho
          simp [hin, hlt]
        · have ho' : o' ≠ o := fun heq => ho heq.symm
          have hcells : m.blocks[b] = some cells := (List.getElem?_eq_some_iff.mp hblock).2
          simp [hin, hcells, ho, List.getElem?_set_ne ho']
      · have hb' : b' ≠ b := fun heq => hb heq.symm
        simp [hb, List.getElem?_set_ne hb']
    · cases h
  · cases h

theorem setCell_isSome {m : Heap} {a : Address} {c : Cell} (h : (m.cell a).isSome) :
    ∃ m', m.setCell a c = some m' := by
  obtain ⟨old, hold⟩ := Option.isSome_iff_exists.mp h
  simp only [cell, Option.bind_eq_some_iff, Option.join_eq_some_iff] at hold
  obtain ⟨cells, hblock, hcell⟩ := hold
  have hlt : a.offset < cells.length := (List.getElem?_eq_some_iff.mp hcell).1
  exact ⟨_, by simp [setCell, hblock, hlt]; rfl⟩

/-- A store into a range that has room succeeds, puts its cells there, and changes
nothing else. -/
theorem write_spec {cells : List Cell} :
    ∀ {m : Heap} {a : Address}, m.Room a cells.length →
      ∃ m', m.write a cells = some m' ∧ m'.Holds a cells ∧ Agree (Within a cells.length) m m' := by
  induction cells with
  | nil =>
      intro m a _
      exact ⟨m, rfl, fun i hi => absurd hi (by simp), Agree.refl _ _⟩
  | cons c rest ih =>
      intro m a hroom
      have hroom₀ : (m.cell a).isSome := by simpa using hroom 0 (by simp)
      -- the first cell, then the rest behind it
      obtain ⟨m₁, hset⟩ := setCell_isSome (c := c) hroom₀
      have hcell := cell_setCell hset
      have hlive : ∀ x, (m₁.cell x).isSome = (m.cell x).isSome := by
        intro x
        rw [hcell x]
        by_cases hx : x = a
        · simp [hx, hroom₀]
        · simp [hx]
      have hroom₁ : m₁.Room (a.add 1) rest.length := by
        intro i hi
        rw [hlive, Address.add_add]
        exact hroom (1 + i) (by rw [List.length_cons]; omega)
      obtain ⟨m', hwrite, hholds, hagree⟩ := ih hroom₁
      refine ⟨m', by rw [write, hset, Option.bind_some, hwrite], ?_, ?_⟩
      · intro i hi
        cases i with
        | zero =>
            -- the later cells leave the first one alone
            have hout : ¬ Within (a.add 1) rest.length a := by
              rintro ⟨-, hlo, -⟩
              rw [Address.add_offset] at hlo
              omega
            rw [Address.add_zero, hagree.same a hout, hcell a]
            simp
        | succ i =>
            have hi' : i < rest.length := by simpa using hi
            have := hholds i hi'
            rw [Address.add_add, Nat.add_comm 1 i] at this
            simpa using this
      · refine ⟨?_, fun x => (hagree.live x).trans (hlive x)⟩
        intro x hx
        have hne : x ≠ a := by
          rintro rfl
          exact hx ⟨rfl, Nat.le_refl _, by simp⟩
        have hout : ¬ Within (a.add 1) rest.length x := by
          rintro ⟨hb, hlo, hhi⟩
          simp only [Address.add_block, Address.add_offset] at hb hlo hhi
          exact hx ⟨hb, by omega, by rw [List.length_cons]; omega⟩
        rw [hagree.same x hout, hcell x, if_neg hne]

/-! ## Allocation -/

theorem cell_alloc (m : Heap) (size : ℕ) (x : Address) :
    (m.alloc size).1.cell x =
      if x.block = m.blocks.length then
        if x.offset < size then some .uninit else none
      else m.cell x := by
  simp only [alloc, cell]
  by_cases hlt : x.block < m.blocks.length
  · rw [List.getElem?_append_left hlt, if_neg (by omega)]
  · by_cases heq : x.block = m.blocks.length
    · rw [if_pos heq, heq]
      simp only [List.getElem?_concat_length, Option.join_some, Option.bind_some,
        List.getElem?_replicate]
    · have hout : (m.blocks ++ [some (List.replicate size Cell.uninit)]).length ≤ x.block := by
        simp only [List.length_append, List.length_singleton]
        omega
      rw [if_neg heq, List.getElem?_eq_none hout, List.getElem?_eq_none (by omega)]

theorem block_lt_of_cell {m : Heap} {a : Address} (h : (m.cell a).isSome) :
    a.block < m.blocks.length := by
  by_contra hge
  rw [cell, List.getElem?_eq_none (by omega)] at h
  cases h

theorem room_alloc (m : Heap) (size : ℕ) : (m.alloc size).1.Room (m.alloc size).2 size := by
  intro i hi
  rw [cell_alloc]
  simp [alloc, hi]

/-- What is known of `m` is true of `m'`. -/
def Extends (m m' : Heap) : Prop := ∀ a cells, m.Holds a cells → m'.Holds a cells

theorem Extends.refl (m : Heap) : m.Extends m := fun _ _ h => h

theorem Extends.trans {m₁ m₂ m₃ : Heap} (h₁ : m₁.Extends m₂) (h₂ : m₂.Extends m₃) :
    m₁.Extends m₃ := fun a cells h => h₂ a cells (h₁ a cells h)

theorem Extends.live {m m' : Heap} (h : m.Extends m') {a : Address} (hlive : (m.cell a).isSome) :
    (m'.cell a).isSome := by
  obtain ⟨c, hc⟩ := Option.isSome_iff_exists.mp hlive
  have hholds : m.Holds a [c] := by
    intro i hi
    obtain rfl : i = 0 := by simpa using hi
    simpa using hc
  have hcell := h a [c] hholds 0 (by simp)
  simp only [Address.add_zero] at hcell
  simp [hcell]

/-- Filling a new block leaves everything known of the old ones. -/
theorem extends_of_alloc {F : Address → Prop} {m m' : Heap} {size : ℕ}
    (h : Agree F (m.alloc size).1 m') (hF : ∀ x, F x → x.block = m.blocks.length) :
    m.Extends m' := by
  intro a cells hholds
  have hlive : ∀ i < cells.length, a.block < m.blocks.length := by
    intro i hi
    have hcell : (m.cell (a.add i)).isSome := by simp [hholds i hi, hi]
    simpa using block_lt_of_cell hcell
  have hold : (m.alloc size).1.Holds a cells := by
    intro i hi
    have hlt := hlive i hi
    rw [cell_alloc, Address.add_block, if_neg (by omega), hholds i hi]
  apply hold.of_agree h
  rintro x ⟨hb, hlo, hhi⟩ hx
  have hlt := hlive (x.offset - a.offset) (by omega)
  have hblock := hF x hx
  omega

/-- A new block, filled from its start. -/
theorem alloc_write_spec (m : Heap) {size : ℕ} {cells : List Cell} (h : cells.length ≤ size) :
    ∃ m', (m.alloc size).1.write (m.alloc size).2 cells = some m' ∧
      m'.Holds (m.alloc size).2 cells ∧ m.Extends m' := by
  obtain ⟨m', hwrite, hholds, hagree⟩ := write_spec ((room_alloc m size).take h)
  refine ⟨m', hwrite, hholds, extends_of_alloc hagree ?_⟩
  rintro x ⟨hb, -⟩
  exact hb

/-- Freeing a live block at its start leaves the other blocks alone. -/
theorem free_spec {m : Heap} {a : Address} (hstart : a.offset = 0) (hlive : (m.cell a).isSome) :
    ∃ m', m.free a = some m' ∧ ∀ x, x.block ≠ a.block → m'.cell x = m.cell x := by
  obtain ⟨c, hcell⟩ := Option.isSome_iff_exists.mp hlive
  simp only [cell, Option.bind_eq_some_iff, Option.join_eq_some_iff] at hcell
  obtain ⟨cells, hblock, _⟩ := hcell
  refine ⟨⟨m.blocks.set a.block none⟩, by simp [free, hblock, hstart], fun x hx => ?_⟩
  simp only [cell]
  rw [List.getElem?_set_ne hx.symm]

end Heap

end Memory
