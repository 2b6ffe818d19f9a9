import LlingrKafka.Foundations.Memory

/-!
# Memory that grows and is given back

`Keeps F` is what a run of allocations and stores into `F` does to what is known of memory.
`Owned` is the invariant of a list of pointers that are to be freed: each starts a live block
of its own, so that freeing all of them succeeds (`freeAll_spec`).
-/

namespace Memory

namespace Heap

/-- What is known outside `F` stays true, and no cell dies. -/
structure Keeps (F : Address → Prop) (m m' : Heap) : Prop where
  holds : ∀ a cells, m.Holds a cells → (∀ x, Within a cells.length x → ¬ F x) → m'.Holds a cells
  live : ∀ x, (m.cell x).isSome → (m'.cell x).isSome

variable {F G : Address → Prop} {m m₁ m₂ m' : Heap}

theorem Agree.keeps (h : Agree F m m') : Keeps F m m' where
  holds _ _ hholds hapart := hholds.of_agree h hapart
  live x hx := by rw [h.live x]; exact hx

theorem Extends.keeps (h : m.Extends m') (F : Address → Prop) : Keeps F m m' where
  holds a cells hholds _ := h a cells hholds
  live _ hx := h.live hx

namespace Keeps

theorem refl (F : Address → Prop) (m : Heap) : Keeps F m m := (Extends.refl m).keeps F

theorem trans (h₁ : Keeps F m m₁) (h₂ : Keeps F m₁ m₂) : Keeps F m m₂ where
  holds a cells hholds hapart := h₂.holds a cells (h₁.holds a cells hholds hapart) hapart
  live x hx := h₂.live x (h₁.live x hx)

theorem mono (h : Keeps F m m') (hFG : ∀ x, F x → G x) : Keeps G m m' where
  holds a cells hholds hapart := h.holds a cells hholds fun x hx hF => hapart x hx (hFG x hF)
  live := h.live

theorem room (h : Keeps F m m') {a : Address} {n : ℕ} (hroom : m.Room a n) : m'.Room a n :=
  fun i hi => h.live _ (hroom i hi)

/-- What is written to a new block leaves everything known of the old ones. -/
theorem extends_of_alloc {size : ℕ} (h : Keeps F (m.alloc size).1 m')
    (hF : ∀ x, F x → x.block = m.blocks.length) : m.Extends m' := by
  intro a cells hholds
  have hold : ∀ i < cells.length, a.block < m.blocks.length := by
    intro i hi
    have hcell : (m.cell (a.add i)).isSome := by simp [hholds i hi, hi]
    simpa using block_lt_of_cell hcell
  apply h.holds
  · intro i hi
    have hlt := hold i hi
    rw [cell_alloc, Address.add_block, if_neg (by omega), hholds i hi]
  · rintro x ⟨hb, hlo, hhi⟩ hx
    have hlt := hold (x.offset - a.offset) (by omega)
    have hblock := hF x hx
    omega

end Keeps

/-- Free the pointers in order. -/
def freeAll (m : Heap) (frees : List Address) : Option Heap := frees.foldlM free m

/-- The pointers start live blocks, each its own. -/
structure Owned (m : Heap) (frees : List Address) : Prop where
  start : ∀ a ∈ frees, a.offset = 0
  live : ∀ a ∈ frees, (m.cell a).isSome
  distinct : (frees.map Address.block).Nodup

namespace Owned

variable {frees : List Address}

theorem nil (m : Heap) : Owned m [] where
  start := by simp
  live := by simp
  distinct := List.nodup_nil

theorem keeps (h : Owned m frees) (hkeeps : Keeps F m m') : Owned m' frees where
  start := h.start
  live a ha := hkeeps.live a (h.live a ha)
  distinct := h.distinct

/-- A new block joins the list. -/
theorem concat (h : Owned m frees) (hextends : m.Extends m')
    (hlive : (m'.cell ⟨m.blocks.length, 0⟩).isSome) :
    Owned m' (frees ++ [⟨m.blocks.length, 0⟩]) where
  start a ha := by
    rcases List.mem_append.mp ha with ha | ha
    · exact h.start a ha
    · rw [List.mem_singleton.mp ha]
  live a ha := by
    rcases List.mem_append.mp ha with ha | ha
    · exact hextends.live (h.live a ha)
    · rw [List.mem_singleton.mp ha]
      exact hlive
  distinct := by
    rw [List.map_append, List.map_singleton]
    refine List.nodup_append.mpr ⟨h.distinct, by simp, ?_⟩
    rintro b hmem b' hnew rfl
    have hblock : b = m.blocks.length := List.mem_singleton.mp hnew
    obtain ⟨a, ha, rfl⟩ := List.mem_map.mp hmem
    have hlt := block_lt_of_cell (h.live a ha)
    omega

end Owned

/-- Owned pointers can all be freed. -/
theorem freeAll_spec {frees : List Address} (h : Owned m frees) :
    ∃ m', freeAll m frees = some m' := by
  induction frees generalizing m with
  | nil => exact ⟨m, rfl⟩
  | cons a frees ih =>
      have hdistinct := h.distinct
      rw [List.map_cons, List.nodup_cons] at hdistinct
      obtain ⟨m₁, hfree, hrest⟩ :=
        free_spec (h.start a List.mem_cons_self) (h.live a List.mem_cons_self)
      have howned : Owned m₁ frees := by
        refine ⟨fun b hb => h.start b (List.mem_cons_of_mem _ hb), fun b hb => ?_, hdistinct.2⟩
        -- the blocks of the others are not the one that was freed
        rw [hrest b fun heq => hdistinct.1 (heq ▸ List.mem_map_of_mem hb)]
        exact h.live b (List.mem_cons_of_mem _ hb)
      obtain ⟨m', hall⟩ := ih howned
      exact ⟨m', by rw [freeAll, List.foldlM_cons, hfree]; exact hall⟩

end Heap

end Memory
