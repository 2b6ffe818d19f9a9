import LlingrKafka.Foundations.CaseRanges
import Mathlib.Algebra.Order.Ring.Int
import Mathlib.Data.List.DropRight
import Mathlib.Tactic.Common

/-!
# Text functions of the option parsers

Trimming, case mapping and integers as Go's `strings` and `strconv` have them.
-/

namespace Text

theorem append_ne_empty {s t : String} (h : s ≠ "" ∨ t ≠ "") : s ++ t ≠ "" := by
  rw [ne_eq, String.append_eq_empty_iff, not_and_or]
  exact h

/-- `unicode.IsSpace`. -/
def isSpace (c : Char) : Bool :=
  (0x9 ≤ c.toNat && c.toNat ≤ 0xD) || c == ' ' || c.toNat == 0x85 || c.toNat == 0xA0 ||
    c.toNat == 0x1680 || (0x2000 ≤ c.toNat && c.toNat ≤ 0x200A) || c.toNat == 0x2028 ||
    c.toNat == 0x2029 || c.toNat == 0x202F || c.toNat == 0x205F || c.toNat == 0x3000

/-- Without white space at the ends. -/
def trim (cs : List Char) : List Char := (cs.dropWhile isSpace).rdropWhile isSpace

/-- `strings.TrimSpace`. -/
def trimSpace (s : String) : String := String.ofList (trim s.toList)

/-- `strings.Cut` at a character: what stands before and behind its first occurrence. -/
def cut (sep : Char) (cs : List Char) : Option (List Char × List Char) :=
  match cs.dropWhile (· != sep) with
  | [] => none
  | _ :: rest => some (cs.takeWhile (· != sep), rest)

/-- `unicode.ToLower`. -/
def lowerRune (c : Char) : Char :=
  if c.toNat < 128 then if 'A' ≤ c ∧ c ≤ 'Z' then Char.ofNat (c.toNat + 32) else c
  else CaseRanges.shift c (CaseRanges.distances c.toNat).2

/-- `unicode.ToUpper`. -/
def upperRune (c : Char) : Char :=
  if c.toNat < 128 then if 'a' ≤ c ∧ c ≤ 'z' then Char.ofNat (c.toNat - 32) else c
  else CaseRanges.shift c (CaseRanges.distances c.toNat).1

/-- Only the dotted I and the Kelvin sign, beyond ASCII, have a lower-case form in it. -/
theorem ascii_of_lowerRune {c : Char} (h : (lowerRune c).toNat < 128) :
    c.toNat < 128 ∨ lowerRune c = 'i' ∨ lowerRune c = 'k' := by
  by_cases hascii : c.toNat < 128
  · exact .inl hascii
  rw [lowerRune, if_neg hascii] at h ⊢
  have hform := (CaseRanges.toNat_shift c).2
  have halternating : ∀ run ∈ CaseRanges.alternatingRuns, 128 < run.1 := by decide
  -- a run of shifted letters that reaches into ASCII is one of ASCII letters or a single letter
  have hshifted : ∀ run ∈ CaseRanges.shiftedRuns, run.2.1 < 128 ∨ 128 ≤ run.1 + run.2.2.2 ∨
      run.1 = run.2.1 ∧ (run.1 + run.2.2.2 = 'i'.toNat ∨ run.1 + run.2.2.2 = 'k'.toNat) := by
    decide +kernel
  obtain ⟨run, hmem, hlo, -, ⟨heq, -⟩ | heq⟩ | ⟨run, hmem, hlo, hhi, heq⟩ | heq :=
    CaseRanges.distances_cases c.toNat
  · rw [heq] at hform h
    omega
  · rw [heq] at hform h
    omega
  · rw [heq] at hform h ⊢
    rcases hshifted run hmem with hbelow | habove | ⟨hsingle, hletter⟩
    · omega
    · omega
    · refine .inr (hletter.imp (fun hletter => ?_) fun hletter => ?_) <;>
        exact Char.toNat_inj.mp (by omega)
  · rw [heq] at hform h
    omega

/-- `strings.ToLower`. -/
def toLower (s : String) : String := String.ofList (s.toList.map lowerRune)

/-- `strings.ToUpper`. -/
def toUpper (s : String) : String := String.ofList (s.toList.map upperRune)

/-- A decimal numeral. -/
def parseNat (cs : List Char) : Option ℕ :=
  if cs = [] then none
  else if cs.all Char.isDigit then some (Nat.ofDigitChars 10 cs 0)
  else none

/-- `strconv.ParseInt` in base 10: an optional sign and digits, in the range of a signed
integer of so many bits. -/
def parseInt (bits : ℕ) (s : String) : Option ℤ :=
  let value : Option ℤ :=
    match s.toList with
    | '-' :: rest => (parseNat rest).map fun n : ℕ => -(n : ℤ)
    | '+' :: rest => (parseNat rest).map fun n : ℕ => (n : ℤ)
    | cs => (parseNat cs).map fun n : ℕ => (n : ℤ)
  value.bind fun v => if -2 ^ (bits - 1) ≤ v ∧ v < 2 ^ (bits - 1) then some v else none

/-- `strconv.Atoi`. -/
def atoi (s : String) : Option ℤ := parseInt 64 s

theorem parseNat_toDigits (n : ℕ) : parseNat (Nat.toDigits 10 n) = some n := by
  have hdigits : ∀ c ∈ Nat.toDigits 10 n, c.isDigit :=
    fun _ hc => Nat.isDigit_of_mem_toDigits (by decide) (by decide) hc
  rw [parseNat, if_neg Nat.toDigits_ne_nil, if_pos (List.all_eq_true.mpr hdigits),
    Nat.ofDigitChars_ten_toDigits]

/-- An integer is read back from its decimal text when it is in range. -/
theorem parseInt_toString_int (bits : ℕ) (n : ℤ) :
    parseInt bits (toString n) =
      if -2 ^ (bits - 1) ≤ n ∧ n < 2 ^ (bits - 1) then some n else none := by
  cases n with
  | negSucc n =>
      have hlist : (toString (Int.negSucc n)).toList = '-' :: Nat.toDigits 10 (n + 1) := by
        show ("-" ++ Nat.repr (n + 1)).toList = _
        rw [String.toList_append, Nat.toList_repr]
        rfl
      simp only [parseInt, hlist]
      rw [parseNat_toDigits, Option.map_some, Option.bind_some]
      rfl
  | ofNat n =>
      have hlist : (toString (Int.ofNat n)).toList = Nat.toDigits 10 n := Nat.toList_repr
      have hdigits : ∀ c ∈ Nat.toDigits 10 n, c.isDigit :=
        fun _ hc => Nat.isDigit_of_mem_toDigits (by decide) (by decide) hc
      have hunsigned : ∀ cs : List Char, (∀ c ∈ cs, c.isDigit) →
          (match cs with
            | '-' :: rest => (parseNat rest).map fun n : ℕ => -(n : ℤ)
            | '+' :: rest => (parseNat rest).map fun n : ℕ => (n : ℤ)
            | cs => (parseNat cs).map fun n : ℕ => (n : ℤ)) =
          (parseNat cs).map fun n : ℕ => (n : ℤ) := by
        intro cs hcs
        split
        · exact absurd (hcs '-' List.mem_cons_self) (by decide)
        · exact absurd (hcs '+' List.mem_cons_self) (by decide)
        · rfl
      simp only [parseInt, hlist]
      rw [hunsigned _ hdigits, parseNat_toDigits, Option.map_some, Option.bind_some]
      rfl

/-- A count is read back from its decimal text when it is in range. -/
theorem parseInt_toString (bits n : ℕ) :
    parseInt bits (toString n) = if n < 2 ^ (bits - 1) then some (n : ℤ) else none := by
  have hrange : (-2 ^ (bits - 1) ≤ (n : ℤ) ∧ (n : ℤ) < 2 ^ (bits - 1)) ↔ n < 2 ^ (bits - 1) := by
    have hpower : ((2 ^ (bits - 1) : ℕ) : ℤ) = 2 ^ (bits - 1) := by push_cast; rfl
    rw [← hpower]
    omega
  have hint := parseInt_toString_int bits n
  simp only [hrange] at hint
  exact hint

theorem atoi_toString {n : ℕ} (hn : n < 2 ^ 63) : atoi (toString n) = some (n : ℤ) := by
  rw [atoi, parseInt_toString, if_pos hn]

end Text
