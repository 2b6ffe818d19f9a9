import Mathlib.Data.List.Nodup
import Mathlib.Tactic.Common

/-!
# Pairs where the last one counts

A list of key-value pairs read as layered settings: `last` is the value given last for a
key.  `put` overwrites in place, so that a list built with it has every key once and
still the same last values.
-/

namespace Assoc

variable {α β : Type*} [DecidableEq α]

/-- The value given last for `key`. -/
def last : List (α × β) → α → Option β
  | [], _ => none
  | p :: rest, key => (last rest key).or (if p.1 = key then some p.2 else none)

/-- Write a pair over the first one with its key, or at the end. -/
def put : List (α × β) → α × β → List (α × β)
  | [], p => [p]
  | q :: rest, p => if q.1 = p.1 then (q.1, p.2) :: rest else q :: put rest p

theorem last_append (l l' : List (α × β)) (key : α) :
    last (l ++ l') key = (last l' key).or (last l key) := by
  induction l with
  | nil => rw [List.nil_append, last, Option.or_none]
  | cons p l ih => rw [List.cons_append, last, ih, last, Option.or_assoc]

/-- No pair has the key. -/
theorem last_eq_none_iff {l : List (α × β)} {key : α} :
    last l key = none ↔ key ∉ l.map Prod.fst := by
  induction l with
  | nil => simp [last]
  | cons p l ih =>
      rw [last, Option.or_eq_none_iff, ih, List.map_cons, List.mem_cons, not_or, and_comm]
      by_cases hkey : p.1 = key
      · simp [hkey]
      · simp [hkey, Ne.symm hkey]

/-- Some pair has the key and the value, and no later one has the key. -/
theorem last_eq_some_iff {l : List (α × β)} {key : α} {value : β} :
    last l key = some value ↔
      ∃ before after, l = before ++ (key, value) :: after ∧ key ∉ after.map Prod.fst := by
  constructor
  · intro h
    induction l with
    | nil => cases h
    | cons p l ih =>
        rw [last] at h
        cases hlast : last l key with
        | some v =>
            rw [hlast, Option.some_or] at h
            obtain ⟨before, after, hl, hafter⟩ := ih (by rw [hlast, h])
            exact ⟨p :: before, after, by rw [hl]; rfl, hafter⟩
        | none =>
            rw [hlast, Option.none_or] at h
            by_cases hkey : p.1 = key
            · rw [if_pos hkey] at h
              obtain rfl := Option.some_inj.mp h
              exact ⟨[], l, by rw [← hkey]; rfl, last_eq_none_iff.mp hlast⟩
            · rw [if_neg hkey] at h
              cases h
  · rintro ⟨before, after, rfl, hafter⟩
    rw [last_append, last, last_eq_none_iff.mpr hafter, if_pos rfl, Option.none_or,
      Option.some_or]

/-- Keys can be renamed. -/
theorem last_map_key {γ : Type*} [DecidableEq γ] {f : α → γ} (hf : Function.Injective f)
    (l : List (α × β)) (key : α) : last (l.map fun p => (f p.1, p.2)) (f key) = last l key := by
  induction l with
  | nil => rfl
  | cons p l ih => simp only [List.map_cons, last, ih, hf.eq_iff]

/-- A part that depends on the keys only keeps the values of its keys. -/
theorem last_filter {l : List (α × β)} (keep : α → Bool) {key : α} (h : keep key) :
    last (l.filter fun p => keep p.1) key = last l key := by
  induction l with
  | nil => rfl
  | cons p l ih =>
      by_cases hp : keep p.1
      · rw [List.filter_cons, if_pos hp, last, last, ih]
      · have hne : p.1 ≠ key := fun heq => hp (heq ▸ h)
        rw [List.filter_cons, if_neg hp, ih, last, if_neg hne, Option.or_none]

omit [DecidableEq α] in
theorem getLast?_filterMap_cons {γ : Type*} {g : α → Option γ} (a : α) (l : List α) :
    ((a :: l).filterMap g).getLast? = (l.filterMap g).getLast?.or (g a) := by
  rw [List.filterMap_cons]
  cases g a with
  | none => rw [Option.or_none]
  | some b =>
      simp only [List.getLast?_cons]
      cases (l.filterMap g).getLast? <;> rfl

theorem last_eq_getLast? (l : List (α × β)) (key : α) :
    last l key = (l.filterMap fun p => if p.1 = key then some p.2 else none).getLast? := by
  induction l with
  | nil => rfl
  | cons p l ih => rw [last, ih, getLast?_filterMap_cons]

/-- What one key contributes can be taken out of a list that has every key once. -/
theorem filterMap_perm_key {γ : Type*} (f : α × β → Option γ) (key : α) {l : List (α × β)}
    (hnodup : (l.map Prod.fst).Nodup) :
    (l.filterMap f).Perm (((last l key).bind fun v => f (key, v)).toList ++
      l.filterMap fun p => if p.1 = key then none else f p) := by
  induction l with
  | nil => exact List.Perm.refl _
  | cons p l ih =>
      rw [List.map_cons, List.nodup_cons] at hnodup
      have hrest := ih hnodup.2
      have hsplit : ∀ g : α × β → Option γ,
          (p :: l).filterMap g = (g p).toList ++ l.filterMap g := by
        intro g
        rw [List.filterMap_cons]
        cases g p <;> rfl
      rw [hsplit, hsplit, last]
      by_cases hkey : p.1 = key
      · subst hkey
        rw [last_eq_none_iff.mpr hnodup.1] at hrest ⊢
        rw [if_pos rfl, if_pos rfl, Option.none_or, Option.bind_some]
        exact hrest.append_left _
      · rw [if_neg hkey, if_neg hkey, Option.or_none]
        exact (hrest.append_left _).trans (List.perm_append_comm_assoc _ _ _)

theorem mem_keys_put {l : List (α × β)} {p : α × β} {key : α} :
    key ∈ (put l p).map Prod.fst ↔ key ∈ l.map Prod.fst ∨ key = p.1 := by
  induction l with
  | nil => simp [put]
  | cons q l ih =>
      unfold put
      split_ifs with hkey
      · simp only [List.map_cons, List.mem_cons, ← hkey]
        tauto
      · simp only [List.map_cons, List.mem_cons, ih]
        tauto

theorem nodup_keys_put {l : List (α × β)} (p : α × β) (h : (l.map Prod.fst).Nodup) :
    ((put l p).map Prod.fst).Nodup := by
  induction l with
  | nil => simp [put]
  | cons q l ih =>
      rw [List.map_cons, List.nodup_cons] at h
      unfold put
      split_ifs with hkey
      · rw [List.map_cons, List.nodup_cons]
        exact h
      · rw [List.map_cons, List.nodup_cons, mem_keys_put]
        refine ⟨?_, ih h.2⟩
        rintro (hmem | heq)
        · exact h.1 hmem
        · exact hkey heq

theorem last_put {l : List (α × β)} (p : α × β) (h : (l.map Prod.fst).Nodup) (key : α) :
    last (put l p) key = if p.1 = key then some p.2 else last l key := by
  induction l with
  | nil => simp [put, last]
  | cons q l ih =>
      rw [List.map_cons, List.nodup_cons] at h
      unfold put
      split_ifs with hkey heq heq
      · rw [last, last_eq_none_iff.mpr (by rw [← heq, ← hkey]; exact h.1), Option.none_or,
          if_pos (hkey.trans heq)]
      · rw [last, last, if_neg (fun hq => heq (hkey.symm.trans hq))]
        rw [if_neg (fun hq => heq (hkey.symm.trans hq))]
      · rw [last, ih h.2, if_pos heq, Option.some_or]
      · rw [last, ih h.2, if_neg heq, last]

/-- Putting the pairs in one after the other keeps every key once. -/
theorem nodup_keys_foldl_put (pairs : List (α × β)) :
    ∀ {l : List (α × β)}, (l.map Prod.fst).Nodup → ((pairs.foldl put l).map Prod.fst).Nodup := by
  induction pairs with
  | nil => exact fun h => h
  | cons p pairs ih => exact fun h => ih (nodup_keys_put p h)

/-- Putting the pairs in one after the other keeps the last values. -/
theorem last_foldl_put (pairs : List (α × β)) (key : α) :
    ∀ {l : List (α × β)}, (l.map Prod.fst).Nodup →
      last (pairs.foldl put l) key = last (l ++ pairs) key := by
  induction pairs with
  | nil =>
      intro l _
      rw [List.append_nil]
      rfl
  | cons p pairs ih =>
      intro l h
      rw [List.foldl_cons, ih (nodup_keys_put p h), last_append, last_append, last_put p h, last,
        Option.or_assoc]
      congr 1
      split_ifs
      · rfl
      · rfl

/-- A table has a row for exactly the keys it lists. -/
theorem isSome_lookup_iff {l : List (α × β)} {key : α} :
    (l.lookup key).isSome ↔ key ∈ l.map Prod.fst := by
  rw [List.lookup_isSome_iff, List.mem_map]
  constructor
  · rintro ⟨p, hp, heq⟩
    exact ⟨p, hp, (eq_of_beq heq).symm⟩
  · rintro ⟨p, hp, rfl⟩
    exact ⟨p, hp, beq_self_eq_true p.1⟩

/-- With distinct keys, the lookup of a pair's key finds its value. -/
theorem lookup_eq_some_of_mem {l : List (α × β)} (hnodup : (l.map Prod.fst).Nodup) {p : α × β}
    (h : p ∈ l) : l.lookup p.1 = some p.2 := by
  obtain ⟨before, after, rfl⟩ := List.append_of_mem h
  rw [List.map_append, List.map_cons, List.nodup_middle, List.nodup_cons] at hnodup
  refine List.lookup_eq_some_iff.mpr ⟨before, after, rfl, fun q hq => ?_⟩
  rw [bne_iff_ne]
  intro heq
  exact hnodup.1 (List.mem_append_left _ (List.mem_map.mpr ⟨q, hq, heq.symm⟩))

/-! ## Two keys for one setting -/

/-- The last pair whose key is one of `keys`. -/
def lastOf (keys : List α) : List (α × β) → Option (α × β)
  | [] => none
  | p :: rest => (lastOf keys rest).or (if p.1 ∈ keys then some p else none)

theorem lastOf_eq_none {keys : List α} {l : List (α × β)} (h : lastOf keys l = none) :
    ∀ key ∈ keys, last l key = none := by
  induction l with
  | nil => exact fun _ _ => rfl
  | cons p l ih =>
      intro key hkey
      rw [lastOf, Option.or_eq_none_iff] at h
      obtain ⟨hrest, hp⟩ := h
      have hne : p.1 ≠ key := by
        rintro rfl
        rw [if_pos hkey] at hp
        cases hp
      rw [last, ih hrest key hkey, if_neg hne, Option.or_none]

theorem last_of_lastOf {keys : List α} {l : List (α × β)} {p : α × β}
    (h : lastOf keys l = some p) : p.1 ∈ keys ∧ last l p.1 = some p.2 := by
  induction l with
  | nil => cases h
  | cons q l ih =>
      rw [lastOf] at h
      cases hrest : lastOf keys l with
      | some p' =>
          rw [hrest, Option.some_or] at h
          obtain rfl := Option.some_inj.mp h
          obtain ⟨hkey, hlast⟩ := ih hrest
          exact ⟨hkey, by rw [last, hlast, Option.some_or]⟩
      | none =>
          rw [hrest, Option.none_or] at h
          split_ifs at h with hkey
          obtain rfl := Option.some_inj.mp h
          exact ⟨hkey, by rw [last, lastOf_eq_none hrest _ hkey, Option.none_or, if_pos rfl]⟩

section

variable {γ : Type*} (l : List (α × β)) (key key' : α) (value : α → β → Option γ)

/-- What two keys set when `key'` is preferred. -/
def preferred : Option γ := (last l key').elim ((last l key).bind (value key)) (value key')

/-- `key` was given last, and `key'` before it with another value. -/
def Shadowed : Prop :=
  ∃ v v', lastOf [key, key'] l = some (key, v) ∧ last l key' = some v' ∧ value key' v' ≠ value key v

variable {l key key' value}

/-- The preferred value is the one given last unless that is shadowed. -/
theorem preferred_eq_iff (hne : key ≠ key') :
    preferred l key key' value = (lastOf [key, key'] l).bind (fun p => value p.1 p.2) ↔
      ¬ Shadowed l key key' value := by
  unfold preferred Shadowed
  cases hlast : lastOf [key, key'] l with
  | none =>
      have hnone := lastOf_eq_none hlast
      rw [hnone key (by simp), hnone key' (by simp)]
      simp
  | some p =>
      obtain ⟨hmem, hvalue⟩ := last_of_lastOf hlast
      obtain ⟨k, v⟩ := p
      simp only [List.mem_cons, List.not_mem_nil, or_false] at hmem
      rcases hmem with rfl | rfl
      · simp only at hvalue
        cases hother : last l key' with
        | none => simp [hvalue]
        | some v' => simp
      · simp only at hvalue
        simp [hvalue, hne.symm]

end

end Assoc
