import LlingrKafka.Foundations.Assoc
import Mathlib.Data.List.Sort
import Mathlib.Order.Lattice

/-!
# Maps with an iteration order

A Go map has no order, but a range over it visits its entries in one, and code that is not
careful lets that order through.  `GoMap` is a map together with the order it happens to be
visited in; two of them are the same map when they agree on every key.

A range over the sorted keys does not see the difference (`sorted_congr`).
-/

/-- The entries in the order a range visits them; every key has one. -/
structure GoMap (α β : Type*) where
  entries : List (α × β)
  nodup : (entries.map Prod.fst).Nodup

namespace GoMap

variable {α β : Type*}

variable [LinearOrder α]

/-- The value of a key. -/
def get? (m : GoMap α β) (key : α) : Option β := Assoc.last m.entries key

/-- `delete`. -/
def erase (m : GoMap α β) (key : α) : GoMap α β where
  entries := m.entries.filter fun p => decide (p.1 ≠ key)
  nodup := (List.filter_sublist.map Prod.fst).nodup m.nodup

/-- The order of the keys. -/
def KeyLE (p q : α × β) : Prop := p.1 ≤ q.1

instance : DecidableRel (@KeyLE α β _) := fun p q =>
  inferInstanceAs (Decidable (p.1 ≤ q.1))

instance : Std.Total (@KeyLE α β _) := ⟨fun p q => le_total p.1 q.1⟩

instance : IsTrans (α × β) KeyLE := ⟨fun _ _ _ => le_trans⟩

/-- The entries by ascending keys. -/
def sorted (m : GoMap α β) : List (α × β) := m.entries.insertionSort KeyLE

theorem get?_eq_some_iff {m : GoMap α β} {key : α} {value : β} :
    m.get? key = some value ↔ (key, value) ∈ m.entries := by
  constructor
  · intro h
    obtain ⟨before, after, heq, -⟩ := Assoc.last_eq_some_iff.mp h
    rw [heq]
    exact List.mem_append_right _ List.mem_cons_self
  · intro h
    obtain ⟨before, after, heq⟩ := List.append_of_mem h
    have hnodup := m.nodup
    rw [heq, List.map_append, List.map_cons, List.nodup_middle, List.nodup_cons] at hnodup
    refine Assoc.last_eq_some_iff.mpr ⟨before, after, heq, fun hmem => ?_⟩
    exact hnodup.1 (List.mem_append_right _ hmem)

theorem get?_erase (m : GoMap α β) (key key' : α) :
    (m.erase key).get? key' = if key' = key then none else m.get? key' := by
  ext value
  rw [get?_eq_some_iff, erase, List.mem_filter]
  by_cases hkey : key' = key
  · simp [hkey]
  · simp [hkey, get?_eq_some_iff]

theorem mem_sorted {m : GoMap α β} {p : α × β} : p ∈ m.sorted ↔ m.get? p.1 = some p.2 := by
  rw [sorted, List.mem_insertionSort, get?_eq_some_iff]

theorem sorted_perm (m : GoMap α β) : m.sorted.Perm m.entries :=
  List.perm_insertionSort KeyLE m.entries

theorem nodup_keys_sorted (m : GoMap α β) : (m.sorted.map Prod.fst).Nodup :=
  (m.sorted_perm.map Prod.fst).nodup_iff.mpr m.nodup

theorem pairwise_sorted (m : GoMap α β) : m.sorted.Pairwise KeyLE :=
  List.pairwise_insertionSort KeyLE m.entries

/-- Keys come in strictly ascending order. -/
theorem sorted_lt (m : GoMap α β) : (m.sorted.map Prod.fst).Pairwise (· < ·) := by
  have hne : (m.sorted.map Prod.fst).Pairwise (· ≠ ·) := m.nodup_keys_sorted
  have hle : (m.sorted.map Prod.fst).Pairwise (· ≤ ·) := List.pairwise_map.mpr m.pairwise_sorted
  exact hle.imp₂ (fun a b hab hne => lt_of_le_of_ne hab hne) hne

theorem sorted_eq_nil_iff {m : GoMap α β} : m.sorted = [] ↔ m.entries = [] := by
  constructor
  · intro h
    have hperm := m.sorted_perm
    rw [h] at hperm
    exact hperm.nil_eq.symm
  · intro h
    rw [sorted, h, List.insertionSort_nil]

/-- Lists with ascending keys are equal when they have the same members. -/
theorem eq_of_ascending {l l' : List (α × β)} (hl : (l.map Prod.fst).Pairwise (· < ·))
    (hl' : (l'.map Prod.fst).Pairwise (· < ·)) (hmem : ∀ p, p ∈ l ↔ p ∈ l') : l = l' := by
  have hl := List.pairwise_map.mp hl
  have hl' := List.pairwise_map.mp hl'
  have hnodup : l.Nodup := hl.imp fun h => ne_of_apply_ne Prod.fst h.ne
  have hnodup' : l'.Nodup := hl'.imp fun h => ne_of_apply_ne Prod.fst h.ne
  have hperm : l.Perm l' := (List.perm_ext_iff_of_nodup hnodup hnodup').mpr hmem
  exact hperm.eq_of_pairwise (fun _ _ _ _ h h' => absurd (h.trans h') (lt_irrefl _)) hl hl'

/-- Sorted, a map is visited in one order: a part of it that depends on the keys only is the
same for maps that agree on those keys. -/
theorem filter_sorted_congr {m m' : GoMap α β} (keep : α → Bool)
    (h : ∀ key, keep key → m.get? key = m'.get? key) :
    (m.sorted.filter fun p => keep p.1) = m'.sorted.filter fun p => keep p.1 := by
  apply eq_of_ascending
  · exact m.sorted_lt.sublist (List.filter_sublist.map Prod.fst)
  · exact m'.sorted_lt.sublist (List.filter_sublist.map Prod.fst)
  · intro p
    simp only [List.mem_filter, mem_sorted]
    exact ⟨fun ⟨hp, hkeep⟩ => ⟨(h p.1 hkeep) ▸ hp, hkeep⟩,
      fun ⟨hp, hkeep⟩ => ⟨(h p.1 hkeep).symm ▸ hp, hkeep⟩⟩

theorem sorted_congr {m m' : GoMap α β} (h : ∀ key, m.get? key = m'.get? key) :
    m.sorted = m'.sorted := by
  apply eq_of_ascending m.sorted_lt m'.sorted_lt
  intro p
  rw [mem_sorted, mem_sorted, h]

theorem last_sorted (m : GoMap α β) (key : α) : Assoc.last m.sorted key = m.get? key := by
  ext value
  constructor
  · intro h
    obtain ⟨before, after, heq, -⟩ := Assoc.last_eq_some_iff.mp h
    exact mem_sorted.mp (heq ▸ List.mem_append_right _ List.mem_cons_self)
  · intro h
    obtain ⟨before, after, heq⟩ := List.append_of_mem (mem_sorted.mpr h : (key, value) ∈ m.sorted)
    have hnodup := m.nodup_keys_sorted
    rw [heq, List.map_append, List.map_cons, List.nodup_middle, List.nodup_cons] at hnodup
    exact Assoc.last_eq_some_iff.mpr
      ⟨before, after, heq, fun hmem => hnodup.1 (List.mem_append_right _ hmem)⟩

/-- Of two keys that set the same thing, the greater one has the last word. -/
theorem getLast?_filterMap_sorted {γ : Type*} (m : GoMap α β) {g : α × β → Option γ}
    {key key' : α} (hlt : key < key') (hg : ∀ p, p.1 ≠ key → p.1 ≠ key' → g p = none) :
    (m.sorted.filterMap g).getLast? =
      ((m.get? key').bind fun v => g (key', v)).or ((m.get? key).bind fun v => g (key, v)) := by
  rw [← last_sorted, ← last_sorted]
  have hascending := m.sorted_lt
  revert hascending
  induction m.sorted with
  | nil => exact fun _ => rfl
  | cons p l ih =>
      intro hascending
      rw [List.map_cons, List.pairwise_cons] at hascending
      have hrest := ih hascending.2
      have habsent : ∀ k, k ≤ p.1 → Assoc.last l k = none := by
        intro k hk
        rw [Assoc.last_eq_none_iff]
        exact fun hmem => absurd (hascending.1 k hmem) (not_lt.mpr hk)
      rw [Assoc.getLast?_filterMap_cons, hrest, Assoc.last, Assoc.last]
      by_cases hkey' : p.1 = key'
      · rw [habsent key' (le_of_eq hkey'.symm), habsent key (hkey' ▸ hlt.le), if_pos hkey',
          if_neg (hkey' ▸ hlt.ne'), ← hkey']
        simp
      · by_cases hkey : p.1 = key
        · rw [habsent key (le_of_eq hkey.symm), if_neg hkey', if_pos hkey, ← hkey]
          simp
        · rw [if_neg hkey', if_neg hkey, hg p hkey hkey']
          simp

/-- What a single key sets. -/
theorem getLast?_filterMap_sorted_of_key {γ : Type*} (m : GoMap α β) {g : α × β → Option γ}
    {key : α} (hg : ∀ p, p.1 ≠ key → g p = none) :
    (m.sorted.filterMap g).getLast? = (m.get? key).bind fun v => g (key, v) := by
  rw [← last_sorted]
  have hnodup := m.nodup_keys_sorted
  revert hnodup
  induction m.sorted with
  | nil => exact fun _ => rfl
  | cons p l ih =>
      intro hnodup
      rw [List.map_cons, List.nodup_cons] at hnodup
      rw [Assoc.getLast?_filterMap_cons, ih hnodup.2, Assoc.last]
      by_cases hkey : p.1 = key
      · rw [Assoc.last_eq_none_iff.mpr (hkey ▸ hnodup.1), if_pos hkey, ← hkey]
        simp
      · rw [if_neg hkey, hg p hkey]
        simp

end GoMap
