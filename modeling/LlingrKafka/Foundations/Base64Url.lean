import Mathlib.Data.List.Basic
import Mathlib.Data.Nat.Notation
import Mathlib.Tactic.Common

/-!
# Unpadded base64url

Three bytes are four numbers below 64, and a last group of one or two bytes is two or three of
them (`sextets`); each number is written as one character of the alphabet.  The decoder skips
line breaks and drops the bits that are left over, as the standard decoders do.

`decode_encode` has the two halves of the definition: `groupBytes_sextets` for the groups and
`value_digit` for the alphabet.
-/

namespace Base64Url

def alphabet : List Char :=
  "ABCDEFGHIJKLMNOPQRSTUVWXYZabcdefghijklmnopqrstuvwxyz0123456789-_".toList

/-- The character of a number below 64. -/
def digit (n : ℕ) : Char := alphabet.getD n 'A'

/-- The number of a character. -/
def value (c : Char) : Option ℕ := if c ∈ alphabet then some (alphabet.idxOf c) else none

/-- The groups of six bits; the last one is filled up with zeros. -/
def sextets : List UInt8 → List ℕ
  | [] => []
  | [a] => [a.toNat / 4, a.toNat % 4 * 16]
  | [a, b] => [a.toNat / 4, a.toNat % 4 * 16 + b.toNat / 16, b.toNat % 16 * 4]
  | a :: b :: c :: rest =>
      a.toNat / 4 :: (a.toNat % 4 * 16 + b.toNat / 16) ::
        (b.toNat % 16 * 4 + c.toNat / 64) :: c.toNat % 64 :: sextets rest

def encode (bytes : List UInt8) : List Char := (sextets bytes).map digit

/-- The bytes of the groups; a single group of six bits is none. -/
def groupBytes : List ℕ → Option (List UInt8)
  | [] => some []
  | [_] => none
  | [p, q] => some [UInt8.ofNat (p * 4 + q / 16)]
  | [p, q, r] => some [UInt8.ofNat (p * 4 + q / 16), UInt8.ofNat (q % 16 * 16 + r / 4)]
  | p :: q :: r :: s :: rest =>
      (groupBytes rest).map fun bytes =>
        UInt8.ofNat (p * 4 + q / 16) :: UInt8.ofNat (q % 16 * 16 + r / 4) ::
          UInt8.ofNat (r % 4 * 64 + s) :: bytes

def isLineBreak (c : Char) : Bool := c == '\n' || c == '\r'

def decode (cs : List Char) : Option (List UInt8) :=
  ((cs.filter fun c => !isLineBreak c).mapM value).bind groupBytes

/-! ## The alphabet -/

theorem value_digit {n : ℕ} (h : n < 64) : value (digit n) = some n := by
  have hall : ∀ n < 64, value (digit n) = some n := by decide +kernel
  exact hall n h

theorem digit_mem {n : ℕ} (h : n < 64) : digit n ∈ alphabet := by
  by_contra hmem
  have hvalue := value_digit h
  rw [value, if_neg hmem] at hvalue
  cases hvalue

theorem not_isLineBreak {c : Char} (h : c ∈ alphabet) : isLineBreak c = false := by
  have hall : (alphabet.all fun c => !isLineBreak c) = true := by decide +kernel
  simpa using List.all_eq_true.mp hall c h

/-! ## The groups -/

theorem sextets_lt (bytes : List UInt8) : ∀ n ∈ sextets bytes, n < 64 := by
  induction bytes using sextets.induct with
  | case1 => intro n hn; cases hn
  | case2 a =>
      intro n hn
      have ha := a.toNat_lt
      simp only [sextets, List.mem_cons, List.not_mem_nil, or_false] at hn
      rcases hn with rfl | rfl <;> omega
  | case3 a b =>
      intro n hn
      have ha := a.toNat_lt
      have hb := b.toNat_lt
      simp only [sextets, List.mem_cons, List.not_mem_nil, or_false] at hn
      rcases hn with rfl | rfl | rfl <;> omega
  | case4 a b c rest ih =>
      intro n hn
      have ha := a.toNat_lt
      have hb := b.toNat_lt
      have hc := c.toNat_lt
      simp only [sextets, List.mem_cons] at hn
      rcases hn with rfl | rfl | rfl | rfl | hn
      · omega
      · omega
      · omega
      · omega
      · exact ih n hn

theorem groupBytes_sextets (bytes : List UInt8) : groupBytes (sextets bytes) = some bytes := by
  have hbyte : ∀ (b : UInt8) (n : ℕ), n = b.toNat → UInt8.ofNat n = b := by
    rintro b n rfl
    exact UInt8.ofNat_toNat
  induction bytes using sextets.induct with
  | case1 => rfl
  | case2 a =>
      rw [sextets, groupBytes, hbyte a _ (by omega)]
  | case3 a b =>
      have hb := b.toNat_lt
      rw [sextets, groupBytes, hbyte a _ (by omega), hbyte b _ (by omega)]
  | case4 a b c rest ih =>
      have hb := b.toNat_lt
      have hc := c.toNat_lt
      rw [sextets, groupBytes, ih, Option.map_some, hbyte a _ (by omega), hbyte b _ (by omega),
        hbyte c _ (by omega)]

/-! ## The text -/

theorem mem_alphabet_of_mem_encode {bytes : List UInt8} {c : Char} (h : c ∈ encode bytes) :
    c ∈ alphabet := by
  obtain ⟨n, hn, rfl⟩ := List.mem_map.mp h
  exact digit_mem (sextets_lt bytes n hn)

/-- What is encoded is decoded. -/
theorem decode_encode (bytes : List UInt8) : decode (encode bytes) = some bytes := by
  have hfilter : (encode bytes).filter (fun c => !isLineBreak c) = encode bytes := by
    rw [List.filter_eq_self]
    intro c hc
    rw [not_isLineBreak (mem_alphabet_of_mem_encode hc)]
    rfl
  have hvalues : ∀ ns : List ℕ, (∀ n ∈ ns, n < 64) → (ns.map digit).mapM value = some ns := by
    intro ns hns
    induction ns with
    | nil => rfl
    | cons n ns ih =>
        rw [List.forall_mem_cons] at hns
        rw [List.map_cons, List.mapM_cons, value_digit hns.1, ih hns.2]
        rfl
  rw [decode, hfilter, encode, hvalues _ (sextets_lt bytes), Option.bind_some, groupBytes_sextets]

example : String.ofList (encode [0x66, 0x6f, 0xff, 0xfe]) = "Zm___g" := by decide +kernel

end Base64Url
