import LlingrKafka.Foundations.Json
import LlingrKafka.Foundations.Assoc
import Mathlib.Logic.Function.Basic

/-!
# Decoding JSON into records

The rules of Go's `encoding/json`.  A decoder stores a JSON value over what is there.
Most errors are only noted: decoding goes on, and the first one noted is reported at the
end; an error of a custom decoder ends it at once.  A null leaves what is there, except
that it empties maps and pointers.  A member of an object belongs to the field with its
exact name, else to the first field whose name is the same up to case, so several members
may be stored into one field, in order.

`Stores decoder j old new` says that `j` is decoded over `old` to `new` without an error.
-/

namespace JsonDecode

/-- A noted error is returned beside what the value left. -/
abbrev Decoder (σ : Type*) := Json → σ → Except String (σ × Option String)

variable {σ φ : Type*}

/-- A string field. -/
def stringDecoder (typeError : Json → String) : Decoder String
  | .str s, _ => .ok (s, none)
  | .null, old => .ok (old, none)
  | j, old => .ok (old, some (typeError j))

/-- A pointer field: a value is decoded over what it points to, else over `zero`. -/
def pointerDecoder (zero : σ) (inner : Decoder σ) : Decoder (Option σ)
  | .null, _ => .ok (none, none)
  | j, old => (inner j (old.getD zero)).map fun r => (some r.1, r.2)

/-- Members stored one after the other. -/
def decodeMembers {κ : Type*} (store : κ → Decoder σ) :
    List (κ × Json) → σ → Except String (σ × Option String)
  | [], old => .ok (old, none)
  | m :: rest, old =>
      (store m.1 m.2 old).bind fun r =>
        (decodeMembers store rest r.1).map fun r' => (r'.1, r.2.or r'.2)

/-- A map of strings: each member sets its own key. -/
def stringMapDecoder (typeError elementError : Json → String) :
    Decoder (String → Option String)
  | .obj members, old =>
      decodeMembers (fun key j map =>
        (stringDecoder elementError j "").map fun r =>
          (Function.update map key (some r.1), r.2)) members old
  | .null, _ => .ok (fun _ => none, none)
  | j, old => .ok (old, some (typeError j))

/-- The case folding of field names.  Field names are ASCII; besides the letters, only
U+017F and U+212A fold to an ASCII character. -/
def foldRune (c : Char) : Char :=
  if 'a' ≤ c ∧ c ≤ 'z' then Char.ofNat (c.toNat - 32)
  else if c = '\u017F' then 'S'
  else if c = '\u212A' then 'K'
  else c

def foldName (name : String) : List Char := name.toList.map foldRune

/-- The field a member belongs to. -/
def fieldFor (fields : List φ) (tag : φ → String) (key : String) : Option φ :=
  (fields.find? fun f => tag f == key).or (fields.find? fun f => foldName (tag f) == foldName key)

/-- A record whose fields are all known: a member of no field is an error. -/
def structDecoder (fields : List φ) (tag : φ → String) (store : φ → Decoder σ)
    (unknownField : String → String) (typeError : Json → String) : Decoder σ
  | .obj members, old =>
      decodeMembers (fun key j old =>
        match fieldFor fields tag key with
        | some f => store f j old
        | none => .ok (old, some (unknownField key))) members old
  | .null, old => .ok (old, none)
  | j, old => .ok (old, some (typeError j))

/-- A record that ignores members of no field. -/
def lenientDecoder (fields : List φ) (tag : φ → String) (store : φ → Decoder σ)
    (typeError : Json → String) : Decoder σ
  | .obj members, old =>
      decodeMembers (fun key j old =>
        match fieldFor fields tag key with
        | some f => store f j old
        | none => .ok (old, none)) members old
  | .null, old => .ok (old, none)
  | j, old => .ok (old, some (typeError j))

/-- A `json.Number` field: the literal of a number, also in quotes; a quoted text that is no
number ends the decoding. -/
def numberDecoder (invalidNumber : String → String) (typeError : Json → String) : Decoder String
  | .num literal, _ => .ok (String.ofList literal, none)
  | .str s, _ =>
      if (Json.parseNumber s.toList).map Prod.snd = some [] then .ok (s, none)
      else .error (invalidNumber s)
  | .null, old => .ok (old, none)
  | j, old => .ok (old, some (typeError j))

/-- A field of a record, decoded in place. -/
def fieldDecoder {τ : Type*} (get : σ → τ) (set : σ → τ → σ) (inner : Decoder τ) : Decoder σ :=
  fun j old => (inner j (get old)).map fun r => (set old r.1, r.2)

/-! ## Decoding without an error -/

/-- `j` is decoded over `old` to `new`. -/
def Stores (decoder : Decoder σ) (j : Json) (old new : σ) : Prop :=
  decoder j old = .ok (new, none)

theorem Stores.pointer {inner : Decoder σ} {zero new : σ} {members : List (String × Json)}
    {old : Option σ} (h : Stores inner (.obj members) (old.getD zero) new) :
    Stores (pointerDecoder zero inner) (.obj members) old (some new) := by
  unfold Stores at h ⊢
  rw [pointerDecoder, h]
  · rfl
  · exact fun hnull => Json.noConfusion hnull

theorem Stores.field {τ : Type*} (get : σ → τ) (set : σ → τ → σ) (old : σ) {inner : Decoder τ}
    {j : Json} {new : τ} (h : Stores inner j (get old) new) :
    Stores (fieldDecoder get set inner) j old (set old new) := by
  unfold Stores at h ⊢
  rw [fieldDecoder, h]
  rfl

/-- The field with the exact name comes first. -/
theorem fieldFor_tag {fields : List φ} {tag : φ → String} (htag : Function.Injective tag) {f : φ}
    (hf : f ∈ fields) : fieldFor fields tag (tag f) = some f := by
  have hfind : (fields.find? fun g => tag g == tag f) = some f := by
    cases hfound : fields.find? fun g => tag g == tag f with
    | none => exact absurd (List.find?_eq_none.mp hfound f hf) (by simp)
    | some g =>
        have hsame := List.find?_some hfound
        simp only [beq_iff_eq] at hsame
        rw [htag hsame]
  rw [fieldFor, hfind, Option.some_or]

/-- A name has a field when it is that of one up to case. -/
theorem isSome_fieldFor_iff {fields : List φ} {tag : φ → String} {key : String} :
    (fieldFor fields tag key).isSome ↔ ∃ f ∈ fields, foldName (tag f) = foldName key := by
  rw [fieldFor, Option.isSome_or, Bool.or_eq_true, List.find?_isSome, List.find?_isSome]
  constructor
  · rintro (⟨f, hf, hname⟩ | ⟨f, hf, hfold⟩)
    · exact ⟨f, hf, congrArg foldName (beq_iff_eq.mp hname)⟩
    · exact ⟨f, hf, beq_iff_eq.mp hfold⟩
  · rintro ⟨f, hf, hfold⟩
    exact .inr ⟨f, hf, beq_iff_eq.mpr hfold⟩

/-- Members that leave everything as it is can be left out. -/
theorem decodeMembers_filter {κ : Type*} {store : κ → Decoder σ} (keep : κ → Bool)
    (hskip : ∀ key j old, keep key = false → store key j old = .ok (old, none))
    (members : List (κ × Json)) (old : σ) :
    decodeMembers store (members.filter fun m => keep m.1) old =
      decodeMembers store members old := by
  induction members generalizing old with
  | nil => rfl
  | cons m rest ih =>
      rw [List.filter_cons]
      cases hkeep : keep m.1 with
      | true =>
          simp only [decodeMembers, ih, if_true]
      | false =>
          rw [if_neg Bool.false_ne_true, ih, decodeMembers, hskip _ _ _ hkeep]
          show _ = (decodeMembers store rest old).map fun r' => (r'.1, r'.2)
          cases decodeMembers store rest old <;> rfl

/-- A lenient record reads only the members it has a field for. -/
theorem lenientDecoder_filter {fields : List φ} {tag : φ → String} {store : φ → Decoder σ}
    {typeError : Json → String} (keep : String → Bool)
    (hkeep : ∀ key, (fieldFor fields tag key).isSome → keep key = true)
    (members : List (String × Json)) (old : σ) :
    lenientDecoder fields tag store typeError (.obj (members.filter fun m => keep m.1)) old =
      lenientDecoder fields tag store typeError (.obj members) old := by
  rw [lenientDecoder, lenientDecoder]
  refine decodeMembers_filter keep (fun key j old hskip => ?_) members old
  cases hfield : fieldFor fields tag key with
  | none => rfl
  | some f =>
      have hkept := hkeep key (by rw [hfield]; rfl)
      rw [hskip] at hkept
      cases hkept

/-- Members stored one after the other without an error. -/
inductive StoresMembers {κ : Type*} (store : κ → Decoder σ) : List (κ × Json) → σ → σ → Prop
  | nil (old : σ) : StoresMembers store [] old old
  | cons {key : κ} {j : Json} {rest : List (κ × Json)} {old mid new : σ}
      (hfirst : Stores (store key) j old mid) (hrest : StoresMembers store rest mid new) :
      StoresMembers store ((key, j) :: rest) old new

section

variable {κ : Type*} {store : κ → Decoder σ}

theorem StoresMembers.append {ms ms' : List (κ × Json)} {old mid new : σ}
    (h : StoresMembers store ms old mid) (h' : StoresMembers store ms' mid new) :
    StoresMembers store (ms ++ ms') old new := by
  induction h with
  | nil old => exact h'
  | cons hfirst _ ih => exact .cons hfirst (ih h')

theorem decodeMembers_of_stores {ms : List (κ × Json)} {old new : σ}
    (h : StoresMembers store ms old new) : decodeMembers store ms old = .ok (new, none) := by
  induction h with
  | nil old => rfl
  | cons hfirst _ ih =>
      rw [decodeMembers, hfirst]
      show (decodeMembers store _ _).map _ = _
      rw [ih]
      rfl

theorem stores_of_decodeMembers {ms : List (κ × Json)} {old new : σ}
    (h : decodeMembers store ms old = .ok (new, none)) : StoresMembers store ms old new := by
  induction ms generalizing old with
  | nil =>
      obtain rfl := (Prod.mk.inj (Except.ok.inj h)).1
      exact .nil old
  | cons m ms ih =>
      rw [decodeMembers] at h
      cases hfirst : store m.1 m.2 old with
      | error e =>
          rw [hfirst] at h
          cases h
      | ok first =>
          rw [hfirst] at h
          cases hrest : decodeMembers store ms first.1 with
          | error e =>
              simp only [Except.bind, hrest] at h
              cases h
          | ok rest =>
              simp only [Except.bind, hrest] at h
              obtain ⟨rfl, hnoted⟩ := Prod.mk.inj (Except.ok.inj h)
              obtain ⟨hfirstNoted, hrestNoted⟩ := Option.or_eq_none_iff.mp hnoted
              refine .cons (show Stores (store m.1) m.2 old first.1 from ?_) (ih ?_)
              · rw [Stores, hfirst, ← hfirstNoted]
              · rw [hrest, ← hrestNoted]

theorem StoresMembers.exists_stores {ms : List (κ × Json)} {old new : σ}
    (h : StoresMembers store ms old new) {m : κ × Json} (hm : m ∈ ms) :
    ∃ old' new', Stores (store m.1) m.2 old' new' := by
  induction h with
  | nil => cases hm
  | cons hfirst _ ih =>
      rcases List.mem_cons.mp hm with rfl | hm
      · exact ⟨_, _, hfirst⟩
      · exact ih hm

/-- What no member touches stays as it was. -/
theorem StoresMembers.frame {τ : Type*} {get : σ → τ} {ms : List (κ × Json)} {old new : σ}
    (h : StoresMembers store ms old new)
    (hframe : ∀ m ∈ ms, ∀ old new, Stores (store m.1) m.2 old new → get new = get old) :
    get new = get old := by
  induction h with
  | nil => rfl
  | cons hfirst _ ih =>
      rw [ih fun m hm => hframe m (List.mem_cons_of_mem _ hm)]
      exact hframe _ List.mem_cons_self _ _ hfirst

/-- An error that ends the decoding, behind members that are stored. -/
theorem decodeMembers_eq_error {ms rest : List (κ × Json)} {m : κ × Json} {old mid : σ}
    {e : String} (h : StoresMembers store ms old mid) (hm : store m.1 m.2 mid = .error e) :
    decodeMembers store (ms ++ m :: rest) old = .error e := by
  induction h with
  | nil old =>
      rw [List.nil_append, decodeMembers, hm]
      rfl
  | cons hfirst _ ih =>
      rw [List.cons_append, decodeMembers, hfirst]
      show (decodeMembers store _ _).map _ = _
      rw [ih hm]
      rfl

/-- Members can be stored under other names that lead to the same decoders. -/
theorem StoresMembers.rename {κ' : Type*} {store' : κ' → Decoder σ} {name : κ → κ'}
    {ms : List (κ × Json)} {old new : σ} (h : StoresMembers store ms old new)
    (hname : ∀ m ∈ ms, store' (name m.1) = store m.1) :
    StoresMembers store' (ms.map fun m => (name m.1, m.2)) old new := by
  induction h with
  | nil old => exact .nil old
  | cons hfirst _ ih =>
      refine .cons ?_ (ih fun m hm => hname m (List.mem_cons_of_mem _ hm))
      rw [hname _ List.mem_cons_self]
      exact hfirst

end

/-- How a record stores a member. -/
def structStore (fields : List φ) (tag : φ → String) (store : φ → Decoder σ)
    (unknownField : String → String) (key : String) : Decoder σ :=
  (fieldFor fields tag key).elim (fun _ old => .ok (old, some (unknownField key))) store

theorem structDecoder_obj (fields : List φ) (tag : φ → String) (store : φ → Decoder σ)
    (unknownField : String → String) (typeError : Json → String) (members : List (String × Json))
    (old : σ) :
    structDecoder fields tag store unknownField typeError (.obj members) old =
      decodeMembers (structStore fields tag store unknownField) members old := by
  rw [structDecoder]
  congr 1
  funext key j old
  rw [structStore]
  cases fieldFor fields tag key <;> rfl

theorem structStore_of_field {fields : List φ} {tag : φ → String} {key : String} {f : φ}
    (h : fieldFor fields tag key = some f) (store : φ → Decoder σ)
    (unknownField : String → String) : structStore fields tag store unknownField key = store f := by
  rw [structStore, h]
  rfl

/-- Only a member of some field is stored without an error. -/
theorem isSome_of_stores_structStore {fields : List φ} {tag : φ → String} {store : φ → Decoder σ}
    {unknownField : String → String} {key : String} {j : Json} {old new : σ}
    (h : Stores (structStore fields tag store unknownField key) j old new) :
    (fieldFor fields tag key).isSome := by
  cases hfield : fieldFor fields tag key with
  | some f => rfl
  | none =>
      rw [Stores, structStore, hfield] at h
      cases (Prod.mk.inj (Except.ok.inj h)).2

/-- A record with some of its fields, under their own names. -/
theorem stores_struct {fields : List φ} {tag : φ → String} {store : φ → Decoder σ}
    (unknownField : String → String) (typeError : Json → String) {members : List (φ × Json)}
    (htag : Function.Injective tag) (hfields : ∀ f, f ∈ fields) {old new : σ}
    (h : StoresMembers store members old new) :
    Stores (structDecoder fields tag store unknownField typeError)
      (.obj (members.map fun m => (tag m.1, m.2))) old new := by
  apply decodeMembers_of_stores
  apply h.rename
  intro m _
  funext j old
  rw [fieldFor_tag htag (hfields m.1)]

/-- A record one of whose fields ends the decoding. -/
theorem structDecoder_eq_error {fields : List φ} {tag : φ → String} {store : φ → Decoder σ}
    (unknownField : String → String) (typeError : Json → String) {ms rest : List (φ × Json)}
    {m : φ × Json} (htag : Function.Injective tag) (hfields : ∀ f, f ∈ fields) {old mid : σ}
    {e : String} (h : StoresMembers store ms old mid) (hm : store m.1 m.2 mid = .error e) :
    structDecoder fields tag store unknownField typeError
      (.obj ((ms ++ m :: rest).map fun m => (tag m.1, m.2))) old = .error e := by
  have hstore : ∀ f, (fun j old =>
      match fieldFor fields tag (tag f) with
      | some g => store g j old
      | none => .ok (old, some (unknownField (tag f)))) = store f := by
    intro f
    funext j old
    rw [fieldFor_tag htag (hfields f)]
  rw [List.map_append, List.map_cons]
  refine decodeMembers_eq_error (h.rename fun m _ => hstore m.1) ?_
  show (match fieldFor fields tag (tag m.1) with
    | some g => store g m.2 mid
    | none => .ok (mid, some (unknownField (tag m.1)))) = _
  rw [fieldFor_tag htag (hfields m.1)]
  exact hm

/-- A map of strings holds the last value of every key. -/
theorem stores_stringMap (typeError elementError : Json → String) (pairs : List (String × String))
    (old : String → Option String) :
    Stores (stringMapDecoder typeError elementError)
      (.obj (pairs.map fun p => (p.1, .str p.2))) old
      (fun key => (Assoc.last pairs key).or (old key)) := by
  apply decodeMembers_of_stores
  induction pairs generalizing old with
  | nil => exact .nil old
  | cons p pairs ih =>
      rw [List.map_cons]
      refine .cons rfl ?_
      have hrest := ih (Function.update old p.1 (some p.2))
      have hlast : (fun key => (Assoc.last pairs key).or (Function.update old p.1 (some p.2) key)) =
          fun key => (Assoc.last (p :: pairs) key).or (old key) := by
        funext key
        rw [Assoc.last, Option.or_assoc]
        by_cases hkey : p.1 = key
        · rw [if_pos hkey, ← hkey, Function.update_self, Option.some_or]
        · rw [if_neg hkey, Function.update_of_ne (Ne.symm hkey), Option.none_or]
      rw [hlast] at hrest
      exact hrest

end JsonDecode
