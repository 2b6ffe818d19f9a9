import LlingrKafka.Abi.Comments
import LlingrKafka.Foundations.Splitting

/-!
# Contract changes

Which changes of a declaration the signature shows (`abi-check/build.rs`).  A header is a list
of declarations: prototypes, which are exported functions and callback typedefs, the `llingr_*`
structs, and everything else.  Its statements are what stands between semicolons, so a prototype
is one statement, and a struct is one for its opening with the first member, one for each other
member, and one for its closing brace with the name.

Only the statements that mention `llingr_` are in the signature.  A struct is not in it as a
whole: a member is only seen if its own statement mentions `llingr_` (`abiSignature_eq_iff`), and
a member such as `int value_len` does not.

Parameters and members are their texts, which have type and name in them: with another type or
name the text is another one.  Two headers that are compared have the same outline, that is the
same declarations in the same order, but for the parameters and the members.
-/

namespace LlingrKafka.Abi

open Utf8

/-- A declaration. -/
inductive Decl
  | prototype (head : List Char) (params : List (List Char))
  | struct (opening first : List Char) (rest : List (List Char)) (name : List Char)
  | other (statement : List Char)
  deriving DecidableEq

/-- The last statement of a struct. -/
def closing (name : List Char) : List Char := '}' :: ' ' :: name

/-- The first statement of a struct. -/
def structHead (opening first : List Char) : List Char := opening ++ ' ' :: first

/-- A parameter list behind its opening bracket. -/
def paramList (params : List (List Char)) : List Char := [',', ' '].intercalate params ++ [')']

def Decl.statements : Decl → List (List Char)
  | prototype head params => [head ++ '(' :: paramList params]
  | struct opening first rest name => structHead opening first :: (rest ++ [closing name])
  | other statement => [statement]

/-- The open brackets behind a character, if it is no comma outside them. -/
def bracketsBehind (d : ℕ) (c : Char) : Option ℕ :=
  if c = '(' then some (d + 1)
  else if c = ')' then if d = 0 then none else some (d - 1)
  else if c = ',' ∧ d = 0 then none
  else some d

/-- The brackets that are open behind a text. -/
def openBrackets (p : List Char) : Option ℕ := p.foldlM bracketsBehind 0

/-- The text is one parameter: its brackets are closed, and its commas are inside them. -/
def OneParam (p : List Char) : Prop := p ≠ [] ∧ openBrackets p = some 0

/-- What C asks of a declaration: each parameter is one; no member is the closing of its struct
or starts as the struct does.  The prototypes and structs are those of the contract. -/
def Decl.Good : Decl → Prop
  | prototype head params => mentions head = true ∧ ∀ p ∈ params, OneParam p
  | struct opening first rest name => mentions name = true ∧
      closing name ∉ structHead opening first :: rest ∧
      ∀ m ∈ rest, ¬ opening ++ [' '] <+: m
  | other _ => True

instance (p : List Char) : Decidable (OneParam p) :=
  inferInstanceAs (Decidable (p ≠ [] ∧ openBrackets p = some 0))

instance : DecidablePred Decl.Good
  | .prototype head params =>
      inferInstanceAs (Decidable (mentions head = true ∧ ∀ p ∈ params, OneParam p))
  | .struct opening first rest name =>
      inferInstanceAs (Decidable (mentions name = true ∧
        closing name ∉ structHead opening first :: rest ∧ ∀ m ∈ rest, ¬ opening ++ [' '] <+: m))
  | .other _ => .isTrue trivial

/-- The header has these declarations and no comments.  What is behind the last semicolon is a
declaration too, if only an empty one. -/
structure Reads (src : Bytes) (H : List Decl) : Prop where
  noBlock : ¬ [slash, star] <:+: src
  noLine : ¬ [slash, slash] <:+: src
  statements : ((src.map fun b => Char.ofNat b.toNat).splitOn ';').map collapse =
    H.flatMap Decl.statements
  good : ∀ d ∈ H, d.Good

/-- Two declarations of the same thing. -/
inductive SameOutline : Decl → Decl → Prop
  | prototype (head : List Char) (params params' : List (List Char)) :
      SameOutline (.prototype head params) (.prototype head params')
  | struct (opening first first' : List Char) (rest rest' : List (List Char)) (name : List Char) :
      SameOutline (.struct opening first rest name) (.struct opening first' rest' name)
  | other (statement : List Char) : SameOutline (.other statement) (.other statement)

/-- A parameter or a member has another name or type, or stands in another place. -/
def Changed : Decl → Decl → Prop
  | .prototype _ params, .prototype _ params' => params ≠ params'
  | .struct _ first rest _, .struct _ first' rest' _ => first :: rest ≠ first' :: rest'
  | _, _ => False

/-- The change is one of parameters, or of members that mention `llingr_`; the first member
stands in the statement that opens the struct. -/
def ChangeShows : Decl → Decl → Prop
  | .prototype _ params, .prototype _ params' => params ≠ params'
  | .struct opening first rest _, .struct _ first' rest' _ =>
      first ≠ first' ∧
          (mentions (structHead opening first) ∨ mentions (structHead opening first')) ∨
        rest.filter mentions ≠ rest'.filter mentions
  | _, _ => False

instance : DecidableRel Changed
  | .prototype _ params, .prototype _ params' => inferInstanceAs (Decidable (params ≠ params'))
  | .struct _ first rest _, .struct _ first' rest' _ =>
      inferInstanceAs (Decidable (first :: rest ≠ first' :: rest'))
  | .prototype .., .struct .. | .prototype .., .other _ | .struct .., .prototype ..
  | .struct .., .other _ | .other _, _ => .isFalse id

instance : DecidableRel ChangeShows
  | .prototype _ params, .prototype _ params' => inferInstanceAs (Decidable (params ≠ params'))
  | .struct opening first rest _, .struct _ first' rest' _ =>
      inferInstanceAs (Decidable (first ≠ first' ∧
          (mentions (structHead opening first) ∨ mentions (structHead opening first')) ∨
        rest.filter mentions ≠ rest'.filter mentions))
  | .prototype .., .struct .. | .prototype .., .other _ | .struct .., .prototype ..
  | .struct .., .other _ | .other _, _ => .isFalse id

/-- The signature is another one whenever a declaration of the contract is. -/
def SeesEveryChange : Prop :=
  ∀ src src' H H', Reads src H → Reads src' H' → List.Forall₂ SameOutline H H' →
    (∃ d ∈ H.zip H', Changed d.1 d.2) → abiSignature src ≠ abiSignature src'

/-! ## The statements of a header -/

/-- A header without comments is all code. -/
theorem lexed_bytes {src : Bytes} (hblock : ¬ [slash, star] <:+: src)
    (hline : ¬ [slash, slash] <:+: src) : Lexed (src.map .byte) := by
  induction src with
  | nil => exact ⟨fun p hp => (by cases hp), List.isChain_nil⟩
  | cons b src ih =>
      have hrest := ih (fun h => hblock (List.infix_cons_iff.mpr (.inr h)))
        fun h => hline (List.infix_cons_iff.mpr (.inr h))
      refine hrest.cons trivial ?_
      intro q hq hslash
      cases src with
      | nil => cases hq
      | cons c src =>
          obtain rfl := Option.some_inj.mp hq
          refine ⟨?_, ?_⟩
          · rintro rfl
            exact hline ⟨[], src, by rw [hslash]; rfl⟩
          · rintro rfl
            exact hblock ⟨[], src, by rw [hslash]; rfl⟩

/-- The statements of a declaration that are in the signature. -/
def Decl.seen (d : Decl) : List (List Char) := d.statements.filter mentions

theorem Reads.abiSignature_eq {src : Bytes} {H : List Decl} (h : Reads src H) :
    abiSignature src = some (";\n".toList.intercalate (H.flatMap Decl.seen)) := by
  have hstrip := stripComments_lexed (lexed_bytes h.noBlock h.noLine)
  rw [textOf_bytes, stripped_bytes] at hstrip
  rw [abiSignature, hstrip, Option.map_some, signatureOf, h.statements, List.filter_flatMap]
  rfl

/-- A statement of the signature is not empty, and no semicolon is in it. -/
theorem Reads.seen_whole {src : Bytes} {H : List Decl} (h : Reads src H) :
    ∀ s ∈ H.flatMap Decl.seen, s ≠ [] ∧ ';' ∉ s := by
  intro s hs
  obtain ⟨d, hd, hs⟩ := List.mem_flatMap.mp hs
  obtain ⟨hstatement, hmentions⟩ := List.mem_filter.mp hs
  refine ⟨?_, fun hsemi => ?_⟩
  · rintro rfl
    exact absurd hmentions (by decide)
  · have hmem : s ∈ H.flatMap Decl.statements := List.mem_flatMap.mpr ⟨d, hd, hstatement⟩
    rw [← h.statements] at hmem
    obtain ⟨fragment, hfragment, rfl⟩ := List.mem_map.mp hmem
    rcases Words.mem_intercalate hsemi with hblank | ⟨w, hw, hsemi⟩
    · exact absurd hblank (by decide)
    · exact Text.not_mem_of_mem_splitOn hfragment (Words.mem_of_mem_words hw hsemi)

/-! ## Parameters -/

/-- What stands behind a parameter. -/
def EndsParam (t : List Char) : Prop := ∃ c ∈ t.head?, c = ',' ∨ c = ')'

/-- A parameter is not a part of another one, up to its end. -/
theorem OneParam.eq_nil_of_append {p u : List Char} (h : OneParam p) (h' : OneParam (p ++ u))
    (hends : u ≠ [] → EndsParam u) : u = [] := by
  by_contra hne
  obtain ⟨c, hc, hend⟩ := hends hne
  obtain ⟨u, rfl⟩ := List.head?_eq_some_iff.mp hc
  have hopen := h'.2
  rw [openBrackets, List.foldlM_append, ← openBrackets, h.2] at hopen
  rcases hend with rfl | rfl
  · cases hopen
  · cases hopen

/-- A parameter ends in one place. -/
theorem OneParam.append_inj {p p' t t' : List Char} (h : OneParam p) (h' : OneParam p')
    (ht : EndsParam t) (ht' : EndsParam t') (heq : p ++ t = p' ++ t') : p = p' ∧ t = t' := by
  have hstart : ∀ {u v : List Char}, EndsParam (u ++ v) → u ≠ [] → EndsParam u := by
    rintro u v ⟨c, hc, hends⟩ hne
    rw [List.head?_append_of_ne_nil _ hne] at hc
    exact ⟨c, hc, hends⟩
  rcases List.append_eq_append_iff.mp heq with ⟨u, rfl, rfl⟩ | ⟨u, rfl, rfl⟩
  · obtain rfl := h.eq_nil_of_append h' (hstart ht)
    exact ⟨(List.append_nil p).symm, rfl⟩
  · obtain rfl := h'.eq_nil_of_append h (hstart ht')
    exact ⟨List.append_nil p', rfl⟩

/-- A parameter list is its first parameter and what comes behind it. -/
theorem exists_paramList_cons (p : List Char) (params : List (List Char)) :
    ∃ t, paramList (p :: params) = p ++ t ∧ EndsParam t ∧
      t = if params = [] then [')'] else ',' :: ' ' :: paramList params := by
  cases params with
  | nil =>
      refine ⟨[')'], ?_, ⟨')', rfl, .inr rfl⟩, (if_pos rfl).symm⟩
      rw [paramList, List.intercalate_singleton]
  | cons q params =>
      refine ⟨',' :: ' ' :: paramList (q :: params), ?_, ⟨',', rfl, .inl rfl⟩,
        (if_neg (List.cons_ne_nil q params)).symm⟩
      rw [paramList, List.intercalate_cons_cons, paramList]
      simp only [List.append_assoc, List.cons_append, List.nil_append]

theorem paramList_injective {params params' : List (List Char)} (h : ∀ p ∈ params, OneParam p)
    (h' : ∀ p ∈ params', OneParam p) (heq : paramList params = paramList params') :
    params = params' := by
  -- a parameter does not begin with the closing bracket
  have hempty : ∀ {p : List Char} (params : List (List Char)), OneParam p →
      paramList [] ≠ paramList (p :: params) := by
    intro p params hp heq
    obtain ⟨t, ht, -, -⟩ := exists_paramList_cons p params
    obtain ⟨c, cs, rfl⟩ := List.exists_cons_of_ne_nil hp.1
    rw [ht] at heq
    obtain rfl : ')' = c := (List.cons.inj heq).1
    cases hp.2
  induction params generalizing params' with
  | nil =>
      cases params' with
      | nil => rfl
      | cons p' params' => exact absurd heq (hempty params' (h' p' List.mem_cons_self))
  | cons p params ih =>
      cases params' with
      | nil => exact absurd heq.symm (hempty params (h p List.mem_cons_self))
      | cons p' params' =>
          rw [List.forall_mem_cons] at h h'
          obtain ⟨t, hp, ht, hrest⟩ := exists_paramList_cons p params
          obtain ⟨t', hp', ht', hrest'⟩ := exists_paramList_cons p' params'
          rw [hp, hp'] at heq
          -- the first parameter ends at the same place in both lists
          obtain ⟨rfl, rfl⟩ := h.1.append_inj h'.1 ht ht' heq
          rw [hrest] at hrest'
          by_cases hnil : params = []
          · by_cases hnil' : params' = []
            · rw [hnil, hnil']
            · rw [if_pos hnil, if_neg hnil'] at hrest'
              cases hrest'
          · by_cases hnil' : params' = []
            · rw [if_neg hnil, if_pos hnil'] at hrest'
              cases hrest'
            · rw [if_neg hnil, if_neg hnil'] at hrest'
              rw [ih h.2 h'.2 (List.cons.inj (List.cons.inj hrest').2).2]

/-! ## Declarations -/

theorem mentions_append {s : List Char} (h : mentions s = true) (before after : List Char) :
    mentions (before ++ s ++ after) = true :=
  decide_eq_true ((of_decide_eq_true h).trans ⟨before, after, rfl⟩)

theorem seen_prototype {head : List Char} (h : mentions head = true)
    (params : List (List Char)) :
    (Decl.prototype head params).seen = [head ++ '(' :: paramList params] :=
  List.filter_cons_of_pos (mentions_append h [] ('(' :: paramList params))

theorem seen_struct {name : List Char} (h : mentions name = true) (opening first : List Char)
    (rest : List (List Char)) :
    (Decl.struct opening first rest name).seen =
      (structHead opening first :: rest).filter mentions ++ [closing name] := by
  have hclosing : mentions (closing name) = true := by
    have hname := mentions_append h ['}', ' '] []
    rwa [List.append_nil] at hname
  rw [Decl.seen, Decl.statements, ← List.cons_append, List.filter_append,
    List.filter_cons_of_pos hclosing, List.filter_nil]

/-- What is seen of a declaration ends in one place. -/
theorem SameOutline.seen_append_inj {d d' : Decl} (h : SameOutline d d') (hd : d.Good)
    (hd' : d'.Good) {X X' : List (List Char)} (heq : d.seen ++ X = d'.seen ++ X') :
    d.seen = d'.seen ∧ X = X' := by
  cases h with
  | prototype head params params' =>
      rw [seen_prototype hd.1, seen_prototype hd'.1] at heq ⊢
      obtain ⟨hstatement, rfl⟩ := List.cons.inj heq
      exact ⟨congrArg (fun s => [s]) hstatement, rfl⟩
  | struct opening first first' rest rest' name =>
      rw [seen_struct hd.1, seen_struct hd'.1] at heq ⊢
      rw [List.append_assoc, List.append_assoc] at heq
      have hmem : ∀ {ls : List (List Char)}, closing name ∉ ls →
          closing name ∉ ls.filter mentions :=
        fun hls hfilter => hls (List.mem_filter.mp hfilter).1
      obtain ⟨hmembers, rfl⟩ :=
        Words.append_cons_inj (hmem hd.2.1) (hmem hd'.2.1) heq
      exact ⟨congrArg (· ++ [closing name]) hmembers, rfl⟩
  | other statement => exact ⟨rfl, List.append_cancel_left heq⟩

/-- The first member of a struct is not taken for another one. -/
theorem structHead_not_mem {opening first : List Char} {rest : List (List Char)}
    (h : ∀ m ∈ rest, ¬ opening ++ [' '] <+: m) : structHead opening first ∉ rest := by
  intro hmem
  refine h _ hmem ⟨first, ?_⟩
  rw [structHead, List.append_assoc]
  rfl

theorem structHead_inj {opening first first' : List Char}
    (h : structHead opening first = structHead opening first') : first = first' :=
  (List.cons.inj (List.append_cancel_left h)).2

/-- A change is seen if it is one of what is seen. -/
theorem SameOutline.seen_eq_iff {d d' : Decl} (h : SameOutline d d') (hd : d.Good)
    (hd' : d'.Good) : d.seen = d'.seen ↔ ¬ ChangeShows d d' := by
  cases h with
  | prototype head params params' =>
      rw [seen_prototype hd.1, seen_prototype hd'.1, ChangeShows, not_not]
      refine ⟨fun heq => ?_, fun heq => by rw [heq]⟩
      have hlist := List.append_cancel_left (List.cons.inj heq).1
      exact paramList_injective hd.2 hd'.2 (List.cons.inj hlist).2
  | struct opening first first' rest rest' name =>
      have hhead : structHead opening first = structHead opening first' ↔ first = first' :=
        ⟨structHead_inj, congrArg (structHead opening)⟩
      rw [seen_struct hd.1, seen_struct hd'.1, List.append_cancel_right_eq,
        Words.filter_cons_eq_iff (structHead_not_mem hd'.2.2) (structHead_not_mem hd.2.2), hhead,
        ChangeShows]
      tauto
  | other statement => exact ⟨fun _ h => h, fun _ => rfl⟩

/-! ## Headers -/

theorem flatMap_seen_eq_iff {H H' : List Decl} (h : List.Forall₂ SameOutline H H')
    (hgood : ∀ d ∈ H, d.Good) (hgood' : ∀ d ∈ H', d.Good) :
    H.flatMap Decl.seen = H'.flatMap Decl.seen ↔ ∀ d ∈ H.zip H', ¬ ChangeShows d.1 d.2 := by
  induction h with
  | nil => simp
  | @cons d d' H H' hd hrest ih =>
      rw [List.forall_mem_cons] at hgood hgood'
      rw [List.flatMap_cons, List.flatMap_cons, List.zip_cons_cons, List.forall_mem_cons,
        ← ih hgood.2 hgood'.2, ← hd.seen_eq_iff hgood.1 hgood'.1]
      exact ⟨hd.seen_append_inj hgood.1 hgood'.1, fun heq => by rw [heq.1, heq.2]⟩

theorem abiSignature_eq_iff {src src' : Bytes} {H H' : List Decl} (h : Reads src H)
    (h' : Reads src' H') (houtline : List.Forall₂ SameOutline H H') :
    abiSignature src = abiSignature src' ↔ ∀ d ∈ H.zip H', ¬ ChangeShows d.1 d.2 := by
  rw [← flatMap_seen_eq_iff houtline h.good h'.good, h.abiSignature_eq, h'.abiSignature_eq,
    Option.some_inj]
  exact ⟨Words.intercalate_injective h.seen_whole h'.seen_whole, fun heq => by rw [heq]⟩

/-- `llingr_header` and `llingr_log_fn`. -/
def preamble : String := "typedef struct \x7b const char* key; int key_len; " ++
  "const char* value; int value_len; \x7d llingr_header; " ++
  "typedef void (*llingr_log_fn)(int level, const char* msg, int msg_len);"

/-- The preamble with another type for `value_len`. -/
def widened : String := "typedef struct \x7b const char* key; int key_len; " ++
  "const char* value; int64_t value_len; \x7d llingr_header; " ++
  "typedef void (*llingr_log_fn)(int level, const char* msg, int msg_len);"

/-- The preamble with two parameters of one type the other way round. -/
def reordered : String := "typedef struct \x7b const char* key; int key_len; " ++
  "const char* value; int value_len; \x7d llingr_header; " ++
  "typedef void (*llingr_log_fn)(int msg_len, const char* msg, int level);"

def declsOf (valueLen : String) (params : List String) : List Decl :=
  [.struct "typedef struct \x7b".toList "const char* key".toList
      ["int key_len".toList, "const char* value".toList, valueLen.toList] "llingr_header".toList,
    .prototype "typedef void (*llingr_log_fn)".toList (params.map String.toList), .other []]

theorem reads_preamble : Reads (encode preamble)
    (declsOf "int value_len" ["int level", "const char* msg", "int msg_len"]) := by
  constructor <;> decide +kernel

theorem reads_widened : Reads (encode widened)
    (declsOf "int64_t value_len" ["int level", "const char* msg", "int msg_len"]) := by
  constructor <;> decide +kernel

theorem reads_reordered : Reads (encode reordered)
    (declsOf "int value_len" ["int msg_len", "const char* msg", "int level"]) := by
  constructor <;> decide +kernel

theorem sameOutline_declsOf (valueLen valueLen' : String) (params params' : List String) :
    List.Forall₂ SameOutline (declsOf valueLen params) (declsOf valueLen' params') :=
  .cons (.struct _ _ _ _ _ _) (.cons (.prototype _ _ _) (.cons (.other _) .nil))

/-- A member with another type is not seen. -/
theorem member_type_not_seen : ¬ SeesEveryChange := by
  intro hsees
  have hsame := sameOutline_declsOf "int value_len" "int64_t value_len"
    ["int level", "const char* msg", "int msg_len"] ["int level", "const char* msg", "int msg_len"]
  have hnone : ∀ d ∈ (declsOf "int value_len" ["int level", "const char* msg", "int msg_len"]).zip
      (declsOf "int64_t value_len" ["int level", "const char* msg", "int msg_len"]),
      ¬ ChangeShows d.1 d.2 := by decide +kernel
  exact hsees (encode preamble) (encode widened) _ _ reads_preamble reads_widened hsame
    ⟨_, List.mem_cons_self, by decide +kernel⟩
    ((abiSignature_eq_iff reads_preamble reads_widened hsame).mpr hnone)

end LlingrKafka.Abi
