import LlingrKafka.Foundations.Base64Url
import LlingrKafka.Foundations.Json
import LlingrKafka.Foundations.Text
import LlingrKafka.Foundations.Utf8

/-!
# The GCP bearer token

`gcpKafkaToken` and `jsonString` (`bridge/gcp_iam.go`).  Times are whole Unix seconds, as
`Time.Unix` gives them, and the access token is any byte string.

The claims are an object put together by formatting, with blanks behind colons and commas;
`parses_claims` gets them from the rules of the JSON library, of which `escapes_marshalRune` is
the part about the principal.  The token is taken apart again at its dots, since no dot is in
the alphabet (`splitOn_gcpKafkaToken`).
-/

namespace LlingrKafka.Security

open Json Utf8

/-- What `json.Marshal` writes for a rune of a string. -/
def marshalRune (c : Char) : List Char :=
  if c = '\\' then ['\\', '\\']
  else if c = '"' then ['\\', '"']
  else if c = '\x08' then ['\\', 'b']
  else if c = '\x0c' then ['\\', 'f']
  else if c = '\n' then ['\\', 'n']
  else if c = '\r' then ['\\', 'r']
  else if c = '\t' then ['\\', 't']
  else if c < ' ' ∨ c = '<' ∨ c = '>' ∨ c = '&' then
    ['\\', 'u', '0', '0', hexDigit (c.toNat / 16), hexDigit (c.toNat % 16)]
  else if c = '\u2028' ∨ c = '\u2029' then ['\\', 'u', '2', '0', '2', hexDigit (c.toNat % 16)]
  else [c]

/-- `jsonString`. -/
def jsonString (s : String) : String := String.ofList ('"' :: s.toList.flatMap marshalRune ++ ['"'])

/-- `gcpKafkaHeader`. -/
def gcpKafkaHeader : String := "\x7b\"typ\": \"JWT\", \"alg\": \"GOOG_OAUTH2_TOKEN\"\x7d"

/-- The `claims` of `gcpKafkaToken`. -/
def gcpKafkaClaims (expiry now : Int64) (principal : String) : String :=
  "\x7b\"exp\": " ++ toString expiry.toInt ++ ", \"iss\": \"Google\", \"iat\": " ++
    toString now.toInt ++ ", \"sub\": " ++ jsonString principal ++ "\x7d"

/-- `gcpKafkaToken`. -/
def gcpKafkaToken (accessToken : Bytes) (expiry now : Int64) (principal : String) : String :=
  let encodeToString := fun bytes : Bytes => String.ofList (Base64Url.encode bytes)
  let claims := gcpKafkaClaims expiry now principal
  encodeToString (encode gcpKafkaHeader) ++ "." ++ encodeToString (encode claims) ++ "." ++
    encodeToString accessToken

/-! ## The claims -/

/-- No rune of the principal gets out of its literal. -/
theorem escapes_marshalRune : Escapes marshalRune := by
  intro c cs
  unfold marshalRune
  split_ifs with hslash hquote hb hf hn hr ht hhex hline
  · exact ⟨.char c, fun us => rfl, by rw [hslash]; exact lexUnits_escape (by decide) (by decide) cs⟩
  · exact ⟨.char c, fun us => rfl, by rw [hquote]; exact lexUnits_escape (by decide) (by decide) cs⟩
  · exact ⟨.char c, fun us => rfl, by rw [hb]; exact lexUnits_escape (by decide) (by decide) cs⟩
  · exact ⟨.char c, fun us => rfl, by rw [hf]; exact lexUnits_escape (by decide) (by decide) cs⟩
  · exact ⟨.char c, fun us => rfl, by rw [hn]; exact lexUnits_escape (by decide) (by decide) cs⟩
  · exact ⟨.char c, fun us => rfl, by rw [hr]; exact lexUnits_escape (by decide) (by decide) cs⟩
  · exact ⟨.char c, fun us => rfl, by rw [ht]; exact lexUnits_escape (by decide) (by decide) cs⟩
  · have hlt : c.toNat < 0x80 := by
      rcases hhex with hcontrol | rfl | rfl | rfl
      · exact lt_trans (show c.toNat < 32 from hcontrol) (by decide)
      · decide
      · decide
      · decide
    refine ⟨.code c.toNat, fun us => ?_, lexUnits_code (hexCode_hexDigit (by omega)) cs⟩
    rw [unitsText_code (by omega), Char.ofNat_toNat]
  · refine ⟨.code c.toNat, fun us => ?_, lexUnits_code ?_ cs⟩
    · have hlt : c.toNat < 0xD800 := by
        rcases hline with rfl | rfl
        · decide
        · decide
      rw [unitsText_code hlt, Char.ofNat_toNat]
    · rcases hline with rfl | rfl
      · decide
      · decide
  · have hspace : ' ' ≤ c := by
      rw [not_or] at hhex
      simpa using hhex.1
    exact ⟨.char c, fun us => rfl, lexUnits_char hquote hslash hspace cs⟩

/-- The members of the claims, each value behind a blank. -/
def claimMembers (expiry now : Int64) (principal : String) : List Member :=
  [⟨"exp", .num (toString expiry.toInt).toList, ' ' :: (toString expiry.toInt).toList⟩,
    ⟨"iss", .str "Google", ' ' :: strText "Google"⟩,
    ⟨"iat", .num (toString now.toInt).toList, ' ' :: (toString now.toInt).toList⟩,
    ⟨"sub", .str principal, ' ' :: (jsonString principal).toList⟩]

section

variable (accessToken : Bytes) (expiry now : Int64) (principal : String)

theorem toList_claims :
    (gcpKafkaClaims expiry now principal).toList =
      '{' :: gappedText [' '] (claimMembers expiry now principal) ++ ['}'] := by
  have hexp : strText "exp" = "\"exp\"".toList := rfl
  have hiss : strText "iss" = "\"iss\"".toList := rfl
  have hiat : strText "iat" = "\"iat\"".toList := rfl
  have hsub : strText "sub" = "\"sub\"".toList := rfl
  have hgoogle : strText "Google" = "\"Google\"".toList := rfl
  simp [gcpKafkaClaims, claimMembers, gappedText, Member.render, hexp, hiss, hiat, hsub, hgoogle]

theorem parses_claims (depth : ℕ) :
    Parses (depth + 1) (gcpKafkaClaims expiry now principal).toList
      (objValue (claimMembers expiry now principal)) := by
  have hblank : ∀ c ∈ [' '], isSpace c = true := by
    intro c hc
    rw [List.mem_singleton.mp hc]
    rfl
  have hliteral : Parses depth (jsonString principal).toList (.str principal) := by
    rw [jsonString, String.toList_ofList]
    exact parses_literal escapes_marshalRune depth principal
  rw [toList_claims]
  refine parses_gapped hblank depth _ fun m hm => ?_
  simp only [claimMembers, List.mem_cons, List.not_mem_nil, or_false] at hm
  rcases hm with rfl | rfl | rfl | rfl
  · exact (parses_int depth _).gap hblank
  · exact (parses_str depth _).gap hblank
  · exact (parses_int depth _).gap hblank
  · exact hliteral.gap hblank

/-! ## The token -/

theorem dot_not_mem (bytes : Bytes) : '.' ∉ Base64Url.encode bytes := by
  intro hmem
  exact absurd (Base64Url.mem_alphabet_of_mem_encode hmem) (by decide)

theorem toList_gcpKafkaToken :
    (gcpKafkaToken accessToken expiry now principal).toList =
      Base64Url.encode (encode gcpKafkaHeader) ++ '.' ::
        (Base64Url.encode (encode (gcpKafkaClaims expiry now principal)) ++ '.' ::
          Base64Url.encode accessToken) := by
  simp [gcpKafkaToken]

/-- The segments are what is between the dots. -/
theorem splitOn_gcpKafkaToken :
    ((gcpKafkaToken accessToken expiry now principal).toList.splitOn '.').map Base64Url.decode =
      [some (encode gcpKafkaHeader), some (encode (gcpKafkaClaims expiry now principal)),
        some accessToken] := by
  rw [toList_gcpKafkaToken, List.splitOn_append_cons_self_of_not_mem (dot_not_mem _),
    List.splitOn_append_cons_self_of_not_mem (dot_not_mem _),
    List.splitOn_eq_singleton (dot_not_mem _)]
  simp only [List.map_cons, List.map_nil, Base64Url.decode_encode]

theorem count_dot_gcpKafkaToken :
    (gcpKafkaToken accessToken expiry now principal).toList.count '.' = 2 := by
  have hnone : ∀ bytes : Bytes, (Base64Url.encode bytes).count '.' = 0 :=
    fun bytes => List.count_eq_zero.mpr (dot_not_mem bytes)
  rw [toList_gcpKafkaToken, List.count_append, List.count_cons_self, List.count_append,
    List.count_cons_self, hnone, hnone, hnone]

theorem mem_gcpKafkaToken {c : Char}
    (h : c ∈ (gcpKafkaToken accessToken expiry now principal).toList) :
    c = '.' ∨ c ∈ Base64Url.alphabet := by
  rw [toList_gcpKafkaToken, List.mem_append, List.mem_cons, List.mem_append, List.mem_cons] at h
  rcases h with h | h | h | h | h
  · exact .inr (Base64Url.mem_alphabet_of_mem_encode h)
  · exact .inl h
  · exact .inr (Base64Url.mem_alphabet_of_mem_encode h)
  · exact .inl h
  · exact .inr (Base64Url.mem_alphabet_of_mem_encode h)

end

/-- A second is read back from its literal. -/
theorem parseInt_unix (t : Int64) : Text.parseInt 64 (toString t.toInt) = some t.toInt := by
  have hlow := t.le_toInt
  have hhigh := t.toInt_lt
  rw [Text.parseInt_toString_int, if_pos ⟨hlow, hhigh⟩]

/-- The claims say what they were made of. -/
theorem claims_injective {expiry expiry' now now' : Int64} {principal principal' : String}
    (h : gcpKafkaClaims expiry now principal = gcpKafkaClaims expiry' now' principal') :
    expiry = expiry' ∧ now = now' ∧ principal = principal' := by
  have hparse := parse_of_parses (parses_claims expiry now principal 0)
  rw [h, parse_of_parses (parses_claims expiry' now' principal' 0)] at hparse
  have htime : ∀ {t t' : Int64},
      (toString t'.toInt).toList = (toString t.toInt).toList → t = t' := by
    intro t t' htext
    have hread := parseInt_unix t
    rw [← String.toList_inj.mp htext, parseInt_unix] at hread
    exact (Int64.toInt_inj.mp (Option.some_inj.mp hread)).symm
  simp only [objValue, claimMembers, List.map_cons, List.map_nil, Option.some_inj, Json.obj.injEq,
    List.cons.injEq, Prod.mk.injEq, Json.num.injEq, Json.str.injEq, true_and, and_true] at hparse
  obtain ⟨hexp, hiat, hsub⟩ := hparse
  exact ⟨htime hexp, htime hiat, hsub.symm⟩

/-- The format of the bearer token.  It is three segments of base64url with two dots between
them: the header, claims that parse to the four members in their order, and the access token.
The seconds are read back from their literals, and equal tokens have equal inputs. -/
theorem gcpKafkaToken_roundTrip (accessToken : Bytes) (expiry now : Int64) (principal : String) :
    (∀ c ∈ (gcpKafkaToken accessToken expiry now principal).toList,
      c = '.' ∨ c ∈ Base64Url.alphabet) ∧
    (gcpKafkaToken accessToken expiry now principal).toList.count '.' = 2 ∧
    (∃ claims : String,
      ((gcpKafkaToken accessToken expiry now principal).toList.splitOn '.').map Base64Url.decode =
        [some (encode gcpKafkaHeader), some (encode claims), some accessToken] ∧
      ∀ depth, parse (depth + 1) claims.toList =
        some (.obj [("exp", .num (toString expiry.toInt).toList), ("iss", .str "Google"),
          ("iat", .num (toString now.toInt).toList), ("sub", .str principal)])) ∧
    Text.parseInt 64 (toString expiry.toInt) = some expiry.toInt ∧
    Text.parseInt 64 (toString now.toInt) = some now.toInt ∧
    ∀ (accessToken' : Bytes) (expiry' now' : Int64) (principal' : String),
      gcpKafkaToken accessToken expiry now principal =
        gcpKafkaToken accessToken' expiry' now' principal' →
      accessToken = accessToken' ∧ expiry = expiry' ∧ now = now' ∧ principal = principal' := by
  refine ⟨fun c => mem_gcpKafkaToken _ _ _ _, count_dot_gcpKafkaToken _ _ _ _, ?_,
    parseInt_unix expiry, parseInt_unix now, ?_⟩
  · exact ⟨_, splitOn_gcpKafkaToken _ _ _ _,
      fun depth => parse_of_parses (parses_claims expiry now principal depth)⟩
  · intro accessToken' expiry' now' principal' h
    have hsegments := splitOn_gcpKafkaToken accessToken expiry now principal
    rw [h, splitOn_gcpKafkaToken] at hsegments
    simp only [List.cons.injEq, Option.some_inj, true_and, and_true] at hsegments
    obtain ⟨hclaims, haccess⟩ := hsegments
    have hdecode := congrArg decode hclaims
    rw [decode_encode, decode_encode, Option.some_inj] at hdecode
    exact ⟨haccess.symm, claims_injective hdecode.symm⟩

end LlingrKafka.Security
