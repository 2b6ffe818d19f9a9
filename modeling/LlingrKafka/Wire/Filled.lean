import LlingrKafka.Wire.Arrival
import LlingrKafka.Wire.Bandwidth

/-!
# What the flattening leaves

`Assigned` is what an assignment leaves in memory, and a later one keeps it, since the fields
of a struct do not overlap (`LaidOut`) and every string has a block of its own.  So all the
elements of an array are there when it is full (`fill_spec`), and an array that is read back
has them in order (`array_spec`), cut like everything else to what a C int can count.
-/

namespace LlingrKafka.Wire

open FixedWidth Memory Metrics Utf8

/-- The field an assignment writes, and its width with the length behind a pointer. -/
def Assignment.field : Assignment → ℕ
  | .int field _ _ => field
  | .cstr field _ => field

def Assignment.width : Assignment → ℕ
  | .int _ width _ => width
  | .cstr _ _ => 12

/-- The fields stand in a struct of `size` bytes, one behind the other. -/
structure LaidOut (size : ℕ) (assignments : List Assignment) : Prop where
  fits : ∀ a ∈ assignments, a.field + a.width ≤ size
  ordered : assignments.Pairwise fun a b => a.field + a.width ≤ b.field

/-- What an assignment leaves. -/
def Assigned (m : Heap) (struct : Address) : Assignment → Prop
  | .int field width x => m.Holds (struct.add field) (pieces width (.int x))
  | .cstr field text => ∃ p : Address, p.block ≠ struct.block ∧
      m.Holds (struct.add field) (pieces pointerSize (.pointer (some p))) ∧
      m.Holds ((struct.add field).add pointerSize) (pieces intSize (.int (wrap 32 text.length))) ∧
      m.Holds p (text.map .byte)

/-- What the assignments to an array leave. -/
def Filled {α : Type*} (size : ℕ) (assignments : α → List Assignment) (m : Heap) :
    Address → List α → Prop
  | _, [] => True
  | struct, x :: rest =>
      (∀ a ∈ assignments x, Assigned m struct a) ∧
        Filled size assignments m (struct.add size) rest

section

variable {F : Address → Prop} {m m' : Heap} {struct : Address}

/-- What was assigned stays, unless its field is written again. -/
theorem Assigned.keeps {a : Assignment} (h : Assigned m struct a) (hkeeps : Heap.Keeps F m m')
    (hblock : ∀ x, F x → x.block = struct.block)
    (hapart : ∀ x, Within (struct.add a.field) a.width x → ¬ F x) : Assigned m' struct a := by
  cases a with
  | int field width x =>
      refine hkeeps.holds _ _ h ?_
      rw [length_pieces]
      exact hapart
  | cstr field text =>
      obtain ⟨p, hp, hpointer, hlen, hbytes⟩ := h
      refine ⟨p, hp, hkeeps.holds _ _ hpointer ?_, hkeeps.holds _ _ hlen ?_,
        hkeeps.holds _ _ hbytes ?_⟩
      · rintro x ⟨hb, hlo, hhi⟩
        rw [length_pieces, pointerSize] at hhi
        exact hapart x ⟨hb, hlo, by
          rw [Assignment.width]; exact lt_trans hhi (by simp [Assignment.field])⟩
      · rintro x ⟨hb, hlo, hhi⟩
        simp only [Address.add_offset, length_pieces, pointerSize, intSize] at hlo hhi
        refine hapart x ⟨hb, ?_, ?_⟩ <;>
          (simp only [Address.add_offset, Assignment.field, Assignment.width]; omega)
      · rintro x ⟨hb, -⟩ hx
        exact hp (hb.symm.trans (hblock x hx))

theorem Filled.keeps {α : Type*} {size : ℕ} {assignments : α → List Assignment}
    (hlaid : ∀ x, LaidOut size (assignments x)) (hkeeps : Heap.Keeps F m m') {xs : List α}
    (h : Filled size assignments m struct xs) (hblock : ∀ x, F x → x.block = struct.block)
    (hapart : ∀ x, Within struct (xs.length * size) x → ¬ F x) :
    Filled size assignments m' struct xs := by
  induction xs generalizing struct with
  | nil => trivial
  | cons x rest ih =>
      rw [List.length_cons, Nat.succ_mul] at hapart
      refine ⟨fun a ha => (h.1 a ha).keeps hkeeps hblock ?_, ih h.2 hblock ?_⟩
      · have hfits := (hlaid x).fits a ha
        rintro y ⟨hb, hlo, hhi⟩
        simp only [Address.add_offset] at hlo hhi
        exact hapart y ⟨hb, by omega, by omega⟩
      · rintro y ⟨hb, hlo, hhi⟩
        simp only [Address.add_offset] at hlo hhi
        exact hapart y ⟨hb, by omega, by omega⟩

theorem Filled.extends {α : Type*} {size : ℕ} {assignments : α → List Assignment}
    (hlaid : ∀ x, LaidOut size (assignments x)) (hextends : m.Extends m') {xs : List α}
    (h : Filled size assignments m struct xs) : Filled size assignments m' struct xs :=
  h.keeps hlaid (hextends.keeps fun _ => False) (fun _ hx => hx.elim) fun _ _ hx => hx

end

/-! ## Assigning -/

theorem sizeT_of_lt {n : ℕ} (h : n < 2 ^ 64) : sizeT n = n := by
  unfold sizeT
  omega

namespace Flattening

variable {s : Flattening} {struct : Address}

/-- `cstr` puts the text into a new block that will be freed. -/
theorem cstr_spec (howned : s.heap.Owned s.frees) (text : GoString) :
    ∃ s', s.cstr text = some (s', ⟨s.heap.blocks.length, 0⟩, wrap 32 text.length) ∧
      s'.heap.Holds ⟨s.heap.blocks.length, 0⟩ (text.map .byte) ∧ s.heap.Extends s'.heap ∧
      s'.heap.Owned s'.frees := by
  obtain ⟨heap, hwritten, hholds, hlive, hextends⟩ := cString_spec s.heap text
  refine ⟨⟨heap, s.frees ++ [⟨s.heap.blocks.length, 0⟩]⟩, ?_, hholds, hextends,
    howned.concat hextends hlive⟩
  rw [cstr, hwritten, Option.map_some]

/-- One assignment writes its field. -/
theorem assign_spec (howned : s.heap.Owned s.frees) (a : Assignment)
    (hroom : s.heap.Room (struct.add a.field) a.width) (hlive : (s.heap.cell struct).isSome) :
    ∃ s', assign struct s a = some s' ∧ Assigned s'.heap struct a ∧
      Heap.Keeps (Within (struct.add a.field) a.width) s.heap s'.heap ∧
      s'.heap.Owned s'.frees := by
  cases a with
  | int field width x =>
      have hroom' : s.heap.Room (struct.add field) (pieces width (.int x)).length := by
        rw [length_pieces]
        exact hroom
      obtain ⟨heap, hwrite, hholds, hagree⟩ := Heap.write_spec hroom'
      rw [length_pieces] at hagree
      refine ⟨{ s with heap }, ?_, hholds, hagree.keeps, howned.keeps hagree.keeps⟩
      rw [assign, Heap.storeScalar, hwrite, Option.map_some]
  | cstr field text =>
      obtain ⟨s₁, hcstr, hbytes, hextends, howned₁⟩ := cstr_spec howned text
      have hroom₁ := (hextends.keeps fun _ => False).room hroom
      obtain ⟨heap, hstore, hpointer, hlen, hagree⟩ :=
        storeField_spec (some ⟨s.heap.blocks.length, 0⟩) (wrap 32 text.length) hroom₁
      -- the text's block is newer than the struct's
      have hblock := Heap.block_lt_of_cell hlive
      refine ⟨{ s₁ with heap }, ?_, ⟨⟨s.heap.blocks.length, 0⟩, ?_, hpointer, hlen, ?_⟩, ?_,
        howned₁.keeps hagree.keeps⟩
      · have hstore' : storeField s₁.heap (struct.add field) (some ⟨s.heap.blocks.length, 0⟩)
            (wrap 32 text.length) = some heap := hstore
        simp only [assign, hcstr, Option.bind_some, hstore', Option.map_some]
      · exact fun heq => absurd heq (Nat.ne_of_gt hblock)
      · apply hbytes.of_agree hagree
        rintro x ⟨hb, -⟩ ⟨hb', -⟩
        simp only [Address.add_block] at hb hb'
        omega
      · exact (hextends.keeps _).trans hagree.keeps

/-- The assignments to one struct. -/
theorem struct_spec {size : ℕ} {as : List Assignment} (howned : s.heap.Owned s.frees)
    (hlaid : LaidOut size as) (hroom : s.heap.Room struct size)
    (hlive : (s.heap.cell struct).isSome) :
    ∃ s', as.foldlM (assign struct) s = some s' ∧ (∀ a ∈ as, Assigned s'.heap struct a) ∧
      Heap.Keeps (fun x => ∃ a ∈ as, Within (struct.add a.field) a.width x) s.heap s'.heap ∧
      s'.heap.Owned s'.frees := by
  induction as generalizing s with
  | nil => exact ⟨s, rfl, by simp, Heap.Keeps.refl _ _, howned⟩
  | cons a as ih =>
      have hfits := hlaid.fits a List.mem_cons_self
      have hordered := List.pairwise_cons.mp hlaid.ordered
      obtain ⟨s₁, hassign, hassigned, hkeeps, howned₁⟩ :=
        assign_spec howned a (hroom.sub hfits) hlive
      obtain ⟨s₂, hrest, hall, hkeeps₂, howned₂⟩ := ih howned₁
        ⟨fun b hb => hlaid.fits b (List.mem_cons_of_mem _ hb), hordered.2⟩ (hkeeps.room hroom)
        (hkeeps.live _ hlive)
      refine ⟨s₂, ?_, List.forall_mem_cons.mpr ⟨?_, hall⟩, ?_, howned₂⟩
      · rw [List.foldlM_cons, hassign]
        exact hrest
      · refine hassigned.keeps hkeeps₂ ?_ ?_
        · rintro x ⟨b, -, hb, -⟩
          exact hb
        · rintro x ⟨-, -, hhi⟩ ⟨b, hb, -, hlo, -⟩
          have hle := hordered.1 b hb
          simp only [Address.add_offset] at hhi hlo
          omega
      · refine (hkeeps.mono ?_).trans (hkeeps₂.mono ?_)
        · exact fun x hx => ⟨a, List.mem_cons_self, hx⟩
        · rintro x ⟨b, hb, hx⟩
          exact ⟨b, List.mem_cons_of_mem _ hb, hx⟩

section

variable {α : Type*} {size : ℕ} {assignments : α → List Assignment}

/-- The loop fills every struct of the array. -/
theorem fill_spec (hlaid : ∀ x, LaidOut size (assignments x)) (hsize : 0 < size) {xs : List α}
    (howned : s.heap.Owned s.frees) (hroom : s.heap.Room struct (xs.length * size)) :
    ∃ s', fill size assignments struct s xs = some s' ∧
      Filled size assignments s'.heap struct xs ∧
      Heap.Keeps (Within struct (xs.length * size)) s.heap s'.heap ∧ s'.heap.Owned s'.frees := by
  induction xs generalizing s struct with
  | nil => exact ⟨s, rfl, trivial, Heap.Keeps.refl _ _, howned⟩
  | cons x rest ih =>
      rw [List.length_cons, Nat.succ_mul] at hroom ⊢
      obtain ⟨s₁, hstruct, hassigned, hkeeps, howned₁⟩ := struct_spec howned (hlaid x)
        (hroom.take (by omega)) (hroom 0 (by omega))
      -- what the struct's assignments touch is inside the struct
      have hinside : ∀ y, (∃ a ∈ assignments x, Within (struct.add a.field) a.width y) →
          Within struct size y := by
        rintro y ⟨a, ha, hb, hlo, hhi⟩
        have hfits := (hlaid x).fits a ha
        simp only [Address.add_offset] at hlo hhi
        exact ⟨hb, by omega, by omega⟩
      have hroom₂ : s₁.heap.Room (struct.add size) (rest.length * size) :=
        hkeeps.room (hroom.sub (by omega))
      obtain ⟨s₂, hrest, hfilled, hkeeps₂, howned₂⟩ := ih howned₁ hroom₂
      refine ⟨s₂, ?_, ⟨fun a ha => (hassigned a ha).keeps hkeeps₂ ?_ ?_, hfilled⟩, ?_, howned₂⟩
      · rw [fill, hstruct, Option.bind_some, hrest]
      · rintro y ⟨hb, -⟩
        exact hb
      · have hfits := (hlaid x).fits a ha
        rintro y ⟨-, -, hhi⟩ ⟨-, hlo, -⟩
        simp only [Address.add_offset] at hhi hlo
        omega
      · refine (hkeeps.mono fun y hy => ?_).trans (hkeeps₂.mono ?_)
        · obtain ⟨hb, hlo, hhi⟩ := hinside y hy
          exact ⟨hb, hlo, by omega⟩
        · rintro y ⟨hb, hlo, hhi⟩
          simp only [Address.add_offset] at hlo hhi
          exact ⟨hb, by omega, by omega⟩

/-! ## Reading back -/

/-- A filled array is read back element by element. -/
theorem borrowElements_of_filled {β : Type*} {borrow : Heap → Address → Option β} {view : α → β}
    (hborrow : ∀ m a x, (∀ b ∈ assignments x, Assigned m a b) → borrow m a = some (view x))
    {m : Heap} {xs : List α} {count : ℕ} (h : Filled size assignments m struct xs)
    (hcount : count ≤ xs.length) :
    borrowElements size borrow m struct count = some ((xs.take count).map view) := by
  induction xs generalizing struct count with
  | nil =>
      obtain rfl : count = 0 := Nat.le_zero.mp hcount
      rfl
  | cons x rest ih =>
      cases count with
      | zero => rfl
      | succ count =>
          rw [List.length_cons] at hcount
          rw [borrowElements, hborrow m struct x h.1, Option.bind_some, ih h.2 (by omega),
            Option.map_some, List.take_succ_cons, List.map_cons]

/-- An array that fits the address space is read back with the elements its count tells. -/
theorem array_spec {β : Type*} {borrow : Heap → Address → Option β} {view : α → β}
    (hborrow : ∀ m a x, (∀ b ∈ assignments x, Assigned m a b) → borrow m a = some (view x))
    (hlaid : ∀ x, LaidOut size (assignments x)) (hsize : 0 < size)
    (howned : s.heap.Owned s.frees) {xs : List α} (hfits : xs.length * size < 2 ^ 64) :
    ∃ s' ptr, s.array size assignments xs = some (s', ptr) ∧ s.heap.Extends s'.heap ∧
      s'.heap.Owned s'.frees ∧ ∀ m, s'.heap.Extends m →
        borrowArray size borrow m ptr (wrap 32 xs.length) = some ((arrived xs).map view) := by
  by_cases hempty : xs.length = 0
  · refine ⟨s, none, by rw [array, if_pos hempty], Heap.Extends.refl _, howned, fun m _ => ?_⟩
    rw [List.length_eq_zero_iff.mp hempty, arrived, List.take_nil, List.map_nil]
    rfl
  · have hbytes := sizeT_of_lt hfits
    have hpos : 0 < xs.length * size := Nat.mul_pos (Nat.pos_of_ne_zero hempty) hsize
    have hblock : (s.heap.alloc (xs.length * size)).2 = ⟨s.heap.blocks.length, 0⟩ := rfl
    have hroom := Heap.room_alloc s.heap (xs.length * size)
    rw [hblock] at hroom
    have hextends : s.heap.Extends (s.heap.alloc (xs.length * size)).1 :=
      (Heap.Keeps.refl (fun _ => False) _).extends_of_alloc fun _ hx => hx.elim
    have hlive := hroom 0 hpos
    rw [Address.add_zero] at hlive
    have howned₁ := howned.concat hextends hlive
    obtain ⟨s', hfill, hfilled, hkeeps, howned'⟩ := fill_spec
      (s := ⟨(s.heap.alloc (xs.length * size)).1, s.frees ++ [⟨s.heap.blocks.length, 0⟩]⟩)
      hlaid hsize howned₁ hroom
    refine ⟨s', some ⟨s.heap.blocks.length, 0⟩, ?_, hkeeps.extends_of_alloc ?_, howned',
      fun m hm => ?_⟩
    · simp only [array, if_neg hempty, hbytes, hblock, hfill, Option.map_some]
    · rintro x ⟨hb, -⟩
      exact hb
    · have hheld := hfilled.extends hlaid hm
      rw [borrowArray]
      by_cases hneg : wrap 32 xs.length ≤ 0
      · have hzero : (wrap 32 xs.length).toNat = 0 := by omega
        rw [if_pos hneg, arrived, hzero, List.take_zero, List.map_nil]
      · rw [if_neg hneg, borrowElements_of_filled hborrow hheld (wrap_length_le xs), arrived]

end

end Flattening

end LlingrKafka.Wire
