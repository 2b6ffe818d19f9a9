import Mathlib.Data.List.Basic
import Mathlib.Data.Nat.Notation
import Mathlib.Tactic.Common

/-!
# UTF-8 text in byte buffers

Byte strings that may or may not be UTF-8: strict decoding, lossy decoding, and
cutting a text at a character boundary.  `String.fromUTF8?` decides what is valid.
-/

namespace Utf8

abbrev Bytes := List UInt8

/-- The bytes of a text. -/
def encode (s : String) : Bytes := s.toUTF8.data.toList

/-- Strict decoding. -/
def decode (bytes : Bytes) : Option String := String.fromUTF8? bytes.toByteArray

theorem encode_of_decode {bytes : Bytes} {s : String} (h : decode bytes = some s) :
    encode s = bytes := by
  unfold decode String.fromUTF8? at h
  split at h
  · obtain rfl := Option.some_inj.mp h
    show bytes.toByteArray.data.toList = bytes
    simp
  · cases h

theorem decode_encode (s : String) : decode (encode s) = some s := by
  have hbytes : (encode s).toByteArray = s.toUTF8 := by
    apply ByteArray.ext
    simp [encode]
  unfold decode String.fromUTF8?
  rw [hbytes]
  exact dif_pos s.isValidUTF8

/-- A continuation byte, `10xxxxxx`. -/
def isContinuation (b : UInt8) : Bool := 0x80 ≤ b && b < 0xC0

/-- A character, or the end of the text, starts at byte `n`. -/
def isCharBoundary (bytes : Bytes) (n : ℕ) : Bool :=
  match bytes[n]? with
  | none => n == bytes.length
  | some b => !isContinuation b

/-- The last character boundary at or below `n`. -/
def floorBoundary (bytes : Bytes) : ℕ → ℕ
  | 0 => 0
  | n + 1 => if isCharBoundary bytes (n + 1) then n + 1 else floorBoundary bytes n

theorem floorBoundary_le (bytes : Bytes) (n : ℕ) : floorBoundary bytes n ≤ n := by
  induction n with
  | zero => exact Nat.le_refl 0
  | succ n ih =>
      unfold floorBoundary
      split
      · exact Nat.le_refl _
      · omega

/-- The second byte continues the lead byte of a three- or four-byte sequence. -/
def continuesLead (lead second : UInt8) : Bool :=
  if lead = 0xE0 then 0xA0 ≤ second && second < 0xC0
  else if lead = 0xED then 0x80 ≤ second && second < 0xA0
  else if lead = 0xF0 then 0x90 ≤ second && second < 0xC0
  else if lead = 0xF4 then 0x80 ≤ second && second < 0x90
  else isContinuation second

/-- How many bytes of an ill-formed sequence one replacement character stands for: the
longest start of a well-formed sequence, or one byte. -/
def invalidLength : Bytes → ℕ
  | lead :: second :: rest =>
      if 0xE0 ≤ lead && lead ≤ 0xEF && continuesLead lead second then 2
      else if 0xF0 ≤ lead && lead ≤ 0xF4 && continuesLead lead second then
        match rest with
        | third :: _ => if isContinuation third then 3 else 2
        | [] => 2
      else 1
  | _ => 1

/-- Lossy decoding with `fuel` for one character per byte; one replacement character
stands for the first `skip` bytes of an ill-formed rest. -/
def decodeChars (skip : Bytes → ℕ) : ℕ → Bytes → List Char
  | _, [] => []
  | 0, _ => []
  | fuel + 1, b :: rest =>
      match (b :: rest).toByteArray.utf8DecodeChar? 0 with
      | some c => c :: decodeChars skip fuel ((b :: rest).drop c.utf8Size)
      | none => '\uFFFD' :: decodeChars skip fuel ((b :: rest).drop (skip (b :: rest)))

/-- Decoding that puts U+FFFD for each longest ill-formed sequence. -/
def decodeLossy (bytes : Bytes) : String :=
  String.ofList (decodeChars invalidLength bytes.length bytes)

/-- Decoding rune by rune, as ranging over a Go string does: U+FFFD for each byte that
starts no character. -/
def decodeRunes (bytes : Bytes) : List Char := decodeChars (fun _ => 1) bytes.length bytes

theorem encode_eq (s : String) : encode s = s.toList.flatMap String.utf8EncodeChar := by
  have hbytes : s.toUTF8 = s.toList.utf8Encode := String.utf8Encode_toList.symm
  rw [encode, hbytes, List.utf8Encode, List.data_toByteArray]

/-- What is well-formed is decoded exactly, whatever stands for the rest. -/
theorem decodeChars_encode (skip : Bytes → ℕ) (cs : List Char) :
    ∀ {fuel : ℕ}, cs.length ≤ fuel →
      decodeChars skip fuel (cs.flatMap String.utf8EncodeChar) = cs := by
  induction cs with
  | nil =>
      intro fuel _
      simp [decodeChars]
  | cons c rest ih =>
      intro fuel hfuel
      obtain ⟨fuel, rfl⟩ : ∃ n, fuel = n + 1 := ⟨fuel - 1, by simp at hfuel; omega⟩
      have hdecode : ((c :: rest).flatMap String.utf8EncodeChar).toByteArray.utf8DecodeChar? 0 =
          some c := by
        rw [List.flatMap_cons, List.toByteArray_append]
        exact ByteArray.utf8DecodeChar?_utf8EncodeChar_append
      have hdrop : ((c :: rest).flatMap String.utf8EncodeChar).drop c.utf8Size =
          rest.flatMap String.utf8EncodeChar := by
        rw [List.flatMap_cons, ← String.length_utf8EncodeChar c, List.drop_left]
      cases hbytes : (c :: rest).flatMap String.utf8EncodeChar with
      | nil =>
          rw [List.flatMap_cons, List.append_eq_nil_iff] at hbytes
          exact absurd hbytes.1 String.utf8EncodeChar_ne_nil
      | cons b bytes =>
          rw [hbytes] at hdecode hdrop
          rw [decodeChars, hdecode]
          simp only
          rw [hdrop, ih (by simpa using hfuel)]

theorem length_le_encode (cs : List Char) :
    cs.length ≤ (cs.flatMap String.utf8EncodeChar).length := by
  induction cs with
  | nil => exact Nat.le_refl 0
  | cons c rest ih =>
      have hpos := c.utf8Size_pos
      rw [List.flatMap_cons, List.length_append, String.length_utf8EncodeChar, List.length_cons]
      omega

/-- What a text is encoded to is decoded to it. -/
theorem decodeLossy_encode (s : String) : decodeLossy (encode s) = s := by
  rw [decodeLossy, encode_eq, decodeChars_encode _ _ (length_le_encode _), String.ofList_toList]

theorem decodeRunes_encode (s : String) : decodeRunes (encode s) = s.toList := by
  rw [decodeRunes, encode_eq]
  exact decodeChars_encode _ _ (length_le_encode _)

theorem space_le_utf8EncodeChar {c : Char} (h : ' ' ≤ c) {b : UInt8}
    (hb : b ∈ String.utf8EncodeChar c) : 0x20 ≤ b := by
  have hc : 32 ≤ c.val.toNat := h
  have hbyte : ∀ n : ℕ, 32 ≤ n % 256 → b = UInt8.ofNat n → 0x20 ≤ b := by
    rintro n hn rfl
    rw [UInt8.le_iff_toNat_le, UInt8.toNat_ofNat']
    exact hn
  unfold String.utf8EncodeChar at hb
  simp only at hb
  -- one case for each length of the encoding; every byte is the character or has its high bit set
  split at hb
  · rw [List.mem_singleton] at hb
    exact hbyte _ (by omega) hb
  · split at hb
    · simp only [List.mem_cons, List.not_mem_nil, or_false] at hb
      rcases hb with hb | hb
      · exact hbyte _ (by omega) hb
      · exact hbyte _ (by omega) hb
    · split at hb
      · simp only [List.mem_cons, List.not_mem_nil, or_false] at hb
        rcases hb with hb | hb | hb
        · exact hbyte _ (by omega) hb
        · exact hbyte _ (by omega) hb
        · exact hbyte _ (by omega) hb
      · simp only [List.mem_cons, List.not_mem_nil, or_false] at hb
        rcases hb with hb | hb | hb | hb
        · exact hbyte _ (by omega) hb
        · exact hbyte _ (by omega) hb
        · exact hbyte _ (by omega) hb
        · exact hbyte _ (by omega) hb

/-- Characters from the space on have no byte below it. -/
theorem space_le_of_mem_encode {s : String} (h : ∀ c ∈ s.toList, ' ' ≤ c) :
    ∀ b ∈ encode s, 0x20 ≤ b := by
  intro b hb
  rw [encode_eq, List.mem_flatMap] at hb
  obtain ⟨c, hc, hb⟩ := hb
  exact space_le_utf8EncodeChar (h c hc) hb

end Utf8
