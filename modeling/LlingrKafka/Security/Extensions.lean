import LlingrKafka.Foundations.Assoc
import LlingrKafka.Foundations.Checks
import LlingrKafka.Foundations.Splitting
import LlingrKafka.Security.Sasl

/-!
# What the extension text is parsed to

A piece between commas is blank, an assignment, or malformed.  `parseOAuthExtensions` fails
when a piece is malformed, and otherwise holds the last assignment of every key
(`parseOAuthExtensions_eq_ok`).
-/

namespace LlingrKafka.Security

open Checks

/-- The assignment a trimmed piece is read as. -/
def assignment (pair : List Char) : Option (String × String) :=
  (Text.cut '=' pair).bind fun kv =>
    if Text.trim kv.1 = [] then none
    else some (String.ofList (Text.trim kv.1), String.ofList (Text.trim kv.2))

/-- A piece that is neither blank nor an assignment. -/
def Malformed (piece : List Char) : Prop :=
  Text.trim piece ≠ [] ∧ assignment (Text.trim piece) = none

instance (piece : List Char) : Decidable (Malformed piece) := inferInstanceAs (Decidable (_ ∧ _))

/-- The assignments among pieces. -/
def assignments (pieces : List (List Char)) : List (String × String) :=
  pieces.filterMap fun piece => assignment (Text.trim piece)

/-- White space around a piece changes nothing. -/
theorem assignment_trim (piece : List Char) : assignment (Text.trim piece) = assignment piece := by
  unfold assignment
  rw [Text.cut_trim (by decide)]
  cases Text.cut '=' piece with
  | none => rfl
  | some halves =>
      simp only [Option.map_some, Option.bind_some, Text.trim_dropWhile, Text.trim_rdropWhile]

theorem assignment_nil : assignment [] = none := rfl

theorem assignments_cons (piece : List Char) (pieces : List (List Char)) :
    assignments (piece :: pieces) =
      (assignment (Text.trim piece)).toList ++ assignments pieces := by
  unfold assignments
  rw [List.filterMap_cons]
  cases assignment (Text.trim piece) <;> rfl

/-- The loop body on a trimmed piece. -/
theorem storeExtension_eq {raw : String} {out : String → Option String} {piece : List Char} :
    storeExtension raw out piece =
      if Text.trim piece = [] then .ok out
      else
        match assignment (Text.trim piece) with
        | none => .error (.extensions raw)
        | some kv => .ok (Function.update out kv.1 (some kv.2)) := by
  unfold storeExtension assignment
  by_cases hblank : Text.trim piece = []
  · exact (if_pos hblank).trans (if_pos hblank).symm
  · refine (if_neg hblank).trans (Eq.trans ?_ (if_neg hblank).symm)
    cases Text.cut '=' (Text.trim piece) with
    | none => rfl
    | some kv =>
        obtain ⟨key, value⟩ := kv
        simp only [Option.bind_some]
        by_cases hkey : Text.trim key = []
        · rw [if_pos hkey, if_pos hkey]
        · rw [if_neg hkey, if_neg hkey]

/-- Pieces are stored when none is malformed; every key then has its last assignment. -/
theorem foldlM_storeExtension_eq_ok {raw : String} {pieces : List (List Char)}
    {out out' : String → Option String} :
    pieces.foldlM (storeExtension raw) out = .ok out' ↔
      (∀ piece ∈ pieces, ¬ Malformed piece) ∧
        out' = fun key => (Assoc.last (assignments pieces) key).or (out key) := by
  induction pieces generalizing out with
  | nil => exact ⟨fun h => ⟨by simp, (Except.ok.inj h).symm⟩, fun h => congrArg Except.ok h.2.symm⟩
  | cons piece pieces ih =>
      rw [List.foldlM_cons, bind_eq_ok, List.forall_mem_cons, assignments_cons]
      simp only [storeExtension_eq]
      by_cases hblank : Text.trim piece = []
      · have hfine : ¬ Malformed piece := fun h => h.1 hblank
        simp [hblank, hfine, assignment_nil, ih]
      · cases hread : assignment (Text.trim piece) with
        | none =>
            have hmalformed : Malformed piece := ⟨hblank, hread⟩
            simp [hblank, hmalformed]
        | some kv =>
            have hfine : ¬ Malformed piece := by
              rintro ⟨-, hnone⟩
              rw [hread] at hnone
              cases hnone
            have hlast : (fun key => (Assoc.last (assignments pieces) key).or
                (Function.update out kv.1 (some kv.2) key)) =
                fun key => (Assoc.last (kv :: assignments pieces) key).or (out key) := by
              funext key
              rw [Assoc.last, Option.or_assoc]
              by_cases hkey : kv.1 = key
              · rw [if_pos hkey, ← hkey, Function.update_self, Option.some_or]
              · rw [if_neg hkey, Function.update_of_ne (Ne.symm hkey), Option.none_or]
            simp only [hblank, hfine, if_false, not_false_eq_true, true_and]
            rw [Option.toList_some, List.singleton_append, ← hlast]
            simp [ih]

/-- Pieces with the same trimmed texts are stored alike. -/
theorem foldlM_storeExtension_congr {raw : String} {pieces pieces' : List (List Char)}
    (h : pieces.map Text.trim = pieces'.map Text.trim) (out : String → Option String) :
    pieces.foldlM (storeExtension raw) out = pieces'.foldlM (storeExtension raw) out := by
  have hstore : ∀ (pieces : List (List Char)) (out : String → Option String),
      pieces.foldlM (storeExtension raw) out =
        (pieces.map Text.trim).foldlM (storeExtension raw) out := by
    intro pieces
    induction pieces with
    | nil => exact fun _ => rfl
    | cons piece pieces ih =>
        intro out
        rw [List.map_cons, List.foldlM_cons, List.foldlM_cons, storeExtension_eq,
          storeExtension_eq, Text.trim_trim]
        simp only [ih]
  rw [hstore, h, ← hstore]

/-- The text is split at its commas, whatever white space is around it. -/
theorem parseOAuthExtensions_eq (raw : String) :
    parseOAuthExtensions raw =
      (raw.toList.splitOn ',').foldlM (storeExtension (Text.trimSpace raw)) fun _ => none := by
  have hpieces : ((Text.trimSpace raw).toList.splitOn ',').map Text.trim =
      (raw.toList.splitOn ',').map Text.trim := by
    rw [Text.trimSpace, String.toList_ofList]
    exact Text.map_trim_splitOn_trim (by decide) raw.toList
  unfold parseOAuthExtensions
  simp only
  rw [← foldlM_storeExtension_congr hpieces]
  split_ifs with hempty
  · rw [hempty]
    rfl
  · rfl

theorem parseOAuthExtensions_eq_ok {raw : String} {out : String → Option String} :
    parseOAuthExtensions raw = .ok out ↔
      (∀ piece ∈ raw.toList.splitOn ',', ¬ Malformed piece) ∧
        out = Assoc.last (assignments (raw.toList.splitOn ',')) := by
  rw [parseOAuthExtensions_eq, foldlM_storeExtension_eq_ok]
  simp only [Option.or_none]

/-- The extensions a mechanism sends; only OIDC sends any. -/
def Mechanism.extensions : Mechanism → String → Option String
  | .oauthOIDC _ _ _ _ extensions => extensions
  | _ => fun _ => none

/-- The extensions of an OAUTHBEARER mechanism are what its field is parsed to. -/
theorem extensions_of_selected {s : FranzSecurity} {m : Mechanism} (h : Selected s m)
    (hname : s.mechanismName = "OAUTHBEARER") :
    parseOAuthExtensions (s.field .oauthExtensions) = .ok m.extensions := by
  cases h with
  | plain h | scramSha256 h | scramSha512 h | awsMskIam h =>
      rw [hname] at h
      exact absurd h (by decide)
  | oauthOIDC _ _ _ extensions hextensions => exact hextensions
  | oauthGCP _ _ _ _ hoidc =>
      rw [hoidc .oauthExtensions (by decide)]
      rfl

/-! ## Keys and values -/

/-- A key and a value that are read back as they are. -/
structure Plain (key value : String) : Prop where
  key_ne : key ≠ ""
  key_trim : Text.trim key.toList = key.toList
  key_equals : '=' ∉ key.toList
  key_comma : ',' ∉ key.toList
  value_trim : Text.trim value.toList = value.toList
  value_comma : ',' ∉ value.toList

/-- What is read is trimmed, and has no separators left. -/
theorem plain_of_assignment {piece : List Char} (hpiece : ',' ∉ piece) {key value : String}
    (h : assignment (Text.trim piece) = some (key, value)) : Plain key value := by
  obtain ⟨⟨before, after⟩, hcut, hread⟩ := Option.bind_eq_some_iff.mp h
  obtain ⟨htrim, hequals⟩ := Text.cut_eq_some hcut
  split_ifs at hread with hne
  obtain ⟨rfl, rfl⟩ := Prod.mk.inj (Option.some_inj.mp hread)
  have hcomma : ∀ c ∈ before ++ '=' :: after, c ≠ ',' := by
    rintro c hc rfl
    exact hpiece (Text.trim_subset (htrim ▸ hc))
  constructor
  · intro hempty
    refine hne ?_
    simpa using congrArg String.toList hempty
  · simp [Text.trim_trim]
  · rw [String.toList_ofList]
    exact fun hmem => hequals (Text.trim_subset hmem)
  · rw [String.toList_ofList]
    exact fun hmem => hcomma ',' (List.mem_append_left _ (Text.trim_subset hmem)) rfl
  · simp [Text.trim_trim]
  · rw [String.toList_ofList]
    exact fun hmem => hcomma ',' (List.mem_append_right _
      (List.mem_cons_of_mem _ (Text.trim_subset hmem))) rfl

end LlingrKafka.Security
