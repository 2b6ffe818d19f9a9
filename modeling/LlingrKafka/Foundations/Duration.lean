import LlingrKafka.Foundations.Json
import Mathlib.Algebra.Order.Ring.Int
import Mathlib.Data.List.DropRight

/-!
# Duration texts

`time.ParseDuration`: a sign, then terms such as `1h`, `30s` or `1.5ms`, added up in
64-bit nanoseconds.  What a fraction contributes is computed in floating point and is a
parameter here; a text without a decimal point never asks for it.
-/

namespace Duration

/-- Why a text is no duration. -/
inductive ParseError
  | invalid
  | missingUnit
  | unknownUnit (unit : String)
  deriving DecidableEq, Repr

/-- The nanoseconds of a unit. -/
def unitMap (unit : String) : Option ℕ :=
  if unit = "ns" then some 1
  else if unit = "us" ∨ unit = "µs" ∨ unit = "μs" then some 1000
  else if unit = "ms" then some 1000000
  else if unit = "s" then some 1000000000
  else if unit = "m" then some 60000000000
  else if unit = "h" then some 3600000000000
  else none

def digitValue (c : Char) : ℕ := c.toNat - 48

/-- The leading `[0-9]*`, unless it exceeds 2⁶³. -/
def leadingInt (x : ℕ) : List Char → Option (ℕ × List Char)
  | [] => some (x, [])
  | c :: rest =>
      if c.isDigit then
        if x > 2 ^ 63 / 10 then none
        else if x * 10 + digitValue c > 2 ^ 63 then none
        else leadingInt (x * 10 + digitValue c) rest
      else some (x, c :: rest)

/-- The digits after a decimal point: their value, how many of them count, and the rest.
Digits that no longer fit are skipped. -/
def leadingFraction (x digits : ℕ) (overflow : Bool) : List Char → ℕ × ℕ × List Char
  | [] => (x, digits, [])
  | c :: rest =>
      if c.isDigit then
        if overflow then leadingFraction x digits true rest
        else if x > (2 ^ 63 - 1) / 10 then leadingFraction x digits true rest
        else if x * 10 + digitValue c > 2 ^ 63 then leadingFraction x digits true rest
        else leadingFraction (x * 10 + digitValue c) (digits + 1) false rest
      else (x, digits, c :: rest)

/-- A character of a unit. -/
def isUnitChar (c : Char) : Bool := !(c == '.' || c.isDigit)

/-- The optional fraction: its digits, how many of them count, whether there are any, and
the rest. -/
def takeFraction : List Char → ℕ × ℕ × Bool × List Char
  | '.' :: rest =>
      let r := leadingFraction 0 0 false rest
      (r.1, r.2.1, decide (r.2.2.length ≠ rest.length), r.2.2)
  | s => (0, 0, false, s)

section

variable (fraction : ℕ → ℕ → ℕ → ℕ)

/-- One term, in nanoseconds, and the rest.  `fraction f digits unit` is what `f` parts of
`10 ^ digits` of a unit amount to. -/
def parseTerm (s : List Char) : Except ParseError (ℕ × List Char) :=
  match leadingInt 0 s with
  | none => .error .invalid
  | some (v, afterInt) =>
      let frac := takeFraction afterInt
      let f := frac.1
      let digits := frac.2.1
      let afterFraction := frac.2.2.2
      if afterInt.length = s.length ∧ frac.2.2.1 = false then .error .invalid
      else
        let unit := String.ofList (afterFraction.takeWhile isUnitChar)
        if unit = "" then .error .missingUnit
        else
          match unitMap unit with
          | none => .error (.unknownUnit unit)
          | some ns =>
              if v > 2 ^ 63 / ns then .error .invalid
              else
                let v := if f > 0 then v * ns + fraction f digits ns else v * ns
                if v > 2 ^ 63 then .error .invalid
                else .ok (v, afterFraction.dropWhile isUnitChar)

/-- The terms up to the end of the text, added to `d` in 64 bits.  Every term takes at
least one character. -/
def parseTerms : ℕ → ℕ → List Char → Except ParseError ℕ
  | _, d, [] => .ok d
  | 0, _, _ :: _ => .error .invalid
  | fuel + 1, d, c :: s =>
      if isUnitChar c then .error .invalid
      else
        match parseTerm fraction (c :: s) with
        | .error e => .error e
        | .ok (v, rest) =>
            let d := (d + v) % 2 ^ 64
            if d > 2 ^ 63 then .error .invalid else parseTerms fuel d rest

/-- The sign, and the text behind it. -/
def takeSign : List Char → Bool × List Char
  | '-' :: s => (true, s)
  | '+' :: s => (false, s)
  | s => (false, s)

/-- `time.ParseDuration`, in nanoseconds. -/
def parse (text : String) : Except ParseError ℤ :=
  let signed := takeSign text.toList
  let s := signed.2
  if s = ['0'] then .ok 0
  else if s = [] then .error .invalid
  else
    match parseTerms fraction s.length 0 s with
    | .error e => .error e
    | .ok d =>
        if signed.1 then .ok (-(d : ℤ))
        else if d > 2 ^ 63 - 1 then .error .invalid
        else .ok d

end

/-- The message of `time.ParseDuration`, with the package's own quoting. -/
def ParseError.text (quote : String → String) (orig : String) : ParseError → String
  | invalid => "time: invalid duration " ++ quote orig
  | missingUnit => "time: missing unit in duration " ++ quote orig
  | unknownUnit unit => "time: unknown unit " ++ quote unit ++ " in duration " ++ quote orig

/-! ## Whole milliseconds -/

/-- A decimal number of milliseconds, as it is written. -/
def msText (n : ℕ) : String := toString n ++ "ms"

theorem toList_msText (n : ℕ) : (msText n).toList = Nat.toDigits 10 n ++ ['m', 's'] := by
  show (n.repr ++ "ms").toList = _
  rw [String.toList_append, Nat.toList_repr]
  rfl

/-- Nothing in it is escaped. -/
theorem strText_msText (n : ℕ) :
    Json.strText (msText n) = '"' :: (msText n).toList ++ ['"'] := by
  apply Json.strText_plain
  intro c hc
  rw [toList_msText, List.mem_append] at hc
  rcases hc with hc | hc
  · exact Json.escapeChar_digit (Json.isDigit_of_mem_numeral c hc)
  · simp only [List.mem_cons, List.not_mem_nil, or_false] at hc
    rcases hc with rfl | rfl <;> decide

theorem le_ofDigitChars (ds : List Char) (x : ℕ) : x ≤ Nat.ofDigitChars 10 ds x := by
  induction ds generalizing x with
  | nil =>
      rw [Nat.ofDigitChars_nil]
  | cons d ds ih =>
      rw [Nat.ofDigitChars_cons]
      have := ih (10 * x + (d.toNat - '0'.toNat))
      omega

/-- Digits are read off one by one, as long as their value fits. -/
theorem leadingInt_digits {ds : List Char} (hds : ∀ c ∈ ds, c.isDigit) {c : Char}
    (hc : c.isDigit = false) (rest : List Char) :
    ∀ {x : ℕ}, Nat.ofDigitChars 10 ds x ≤ 2 ^ 63 →
      leadingInt x (ds ++ c :: rest) = some (Nat.ofDigitChars 10 ds x, c :: rest) := by
  induction ds with
  | nil =>
      intro x _
      rw [List.nil_append, leadingInt, if_neg (by simp [hc]), Nat.ofDigitChars_nil]
  | cons d ds ih =>
      intro x hfits
      have hd := hds d List.mem_cons_self
      rw [Nat.ofDigitChars_cons] at hfits ⊢
      have hvalue : x * 10 + digitValue d = 10 * x + (d.toNat - '0'.toNat) := by
        rw [digitValue, Nat.mul_comm]
        rfl
      have hle := le_ofDigitChars ds (10 * x + (d.toNat - '0'.toNat))
      rw [List.cons_append, leadingInt, if_pos hd, if_neg (by omega), if_neg (by omega), hvalue]
      exact ih (fun c hc => hds c (List.mem_cons_of_mem _ hc)) hfits

variable {fraction : ℕ → ℕ → ℕ → ℕ}

/-- One term in whole milliseconds. -/
theorem parseTerm_ms {n : ℕ} (hn : n * 1000000 ≤ 2 ^ 63) :
    parseTerm fraction (Nat.toDigits 10 n ++ ['m', 's']) = .ok (n * 1000000, []) := by
  have hint : leadingInt 0 (Nat.toDigits 10 n ++ ['m', 's']) = some (n, ['m', 's']) := by
    have hdigits : ∀ c ∈ Nat.toDigits 10 n, c.isDigit := Json.isDigit_of_mem_numeral
    have hfits : Nat.ofDigitChars 10 (Nat.toDigits 10 n) 0 ≤ 2 ^ 63 := by
      rw [Nat.ofDigitChars_ten_toDigits]
      omega
    have h := leadingInt_digits hdigits (c := 'm') (by decide) ['s'] hfits
    rwa [Nat.ofDigitChars_ten_toDigits] at h
  have hunit : String.ofList (['m', 's'].takeWhile isUnitChar) = "ms" := rfl
  have hsome : ['m', 's'].length ≠ (Nat.toDigits 10 n ++ ['m', 's']).length := by
    have hpos : 0 < (Nat.toDigits 10 n).length := Nat.length_toDigits_pos
    rw [List.length_append]
    omega
  have hfraction : takeFraction ['m', 's'] = (0, 0, false, ['m', 's']) := rfl
  rw [parseTerm, hint]
  simp only [hfraction]
  rw [if_neg (fun h => hsome h.1), hunit, if_neg (by decide)]
  have hms : unitMap "ms" = some 1000000 := by decide
  rw [hms]
  simp only
  rw [if_neg (by omega), if_neg (Nat.lt_irrefl 0), if_neg (by omega)]
  rfl

/-- Terms that are one term are its value, as long as that fits. -/
theorem parseTerms_one {s : List Char} {v : ℕ} (hne : s ≠ [])
    (hhead : ∀ c ∈ s.head?, isUnitChar c = false) (hterm : parseTerm fraction s = .ok (v, []))
    (hv : v ≤ 2 ^ 63) : parseTerms fraction s.length 0 s = .ok v := by
  cases s with
  | nil => exact absurd rfl hne
  | cons c rest =>
      have hc : isUnitChar c = false := hhead c rfl
      have hmod : (0 + v) % 2 ^ 64 = v := by
        rw [Nat.zero_add]
        exact Nat.mod_eq_of_lt (by omega)
      have hle : ¬v > 2 ^ 63 := Nat.not_lt.mpr hv
      simp only [List.length_cons, parseTerms, hc, hterm, hmod, hle, Bool.false_eq_true, if_false]

/-- A text that begins with a digit has no sign. -/
theorem takeSign_of_digit {s : List Char} (hdigit : ∀ c ∈ s.head?, c.isDigit) :
    takeSign s = (false, s) := by
  rw [takeSign.eq_def]
  split
  · exact absurd (hdigit '-' rfl) (by decide)
  · exact absurd (hdigit '+' rfl) (by decide)
  · rfl

/-- A whole number of milliseconds is read back, if it fits in 64 bits of nanoseconds. -/
theorem parse_msText {n : ℕ} (hn : n * 1000000 < 2 ^ 63) :
    parse fraction (msText n) = .ok ((n * 1000000 : ℕ) : ℤ) := by
  have hterm := @parseTerm_ms fraction n (Nat.le_of_lt hn)
  have hlist := toList_msText n
  have hdigit : ∀ c ∈ (msText n).toList.head?, c.isDigit := by
    intro c hc
    rw [hlist, List.head?_append_of_ne_nil _ Nat.toDigits_ne_nil] at hc
    exact Json.isDigit_of_mem_numeral c (List.mem_of_mem_head? hc)
  have hlength : 2 < (msText n).toList.length := by
    have hpos : 0 < (Nat.toDigits 10 n).length := Nat.length_toDigits_pos
    rw [hlist, List.length_append]
    simp only [List.length_cons, List.length_nil]
    omega
  rw [← hlist] at hterm
  have hnonempty : (msText n).toList ≠ [] := List.ne_nil_of_length_pos (by omega)
  have hzero : (msText n).toList ≠ ['0'] := by
    intro h
    rw [h] at hlength
    exact absurd hlength (by decide)
  have hterms : parseTerms fraction (msText n).toList.length 0 (msText n).toList =
      .ok (n * 1000000) := by
    apply parseTerms_one hnonempty _ hterm (Nat.le_of_lt hn)
    intro c hc
    simp [isUnitChar, hdigit c hc]
  have hfits : ¬n * 1000000 > 2 ^ 63 - 1 := by omega
  rw [parse, takeSign_of_digit hdigit]
  simp only [hzero, hnonempty, hterms, hfits, Bool.false_eq_true, if_false]

/-! ## Printing -/

/-- The digits of `v` below `10 ^ digits`, as a fraction without trailing zeros. -/
def fractionText (v digits : ℕ) : String :=
  let shown := Nat.toDigits 10 (v % 10 ^ digits)
  let padded := List.replicate (digits - shown.length) '0' ++ shown
  let kept := padded.rdropWhile (· == '0')
  if kept = [] then "" else String.ofList ('.' :: kept)

/-- `time.Duration.String`. -/
def text (d : ℤ) : String :=
  let u := d.natAbs
  let seconds := u / 1000000000
  let minutes := seconds / 60
  let hours := minutes / 60
  let abs :=
    if u = 0 then "0s"
    else if u < 1000 then toString u ++ "ns"
    else if u < 1000000 then toString (u / 1000) ++ fractionText u 3 ++ "µs"
    else if u < 1000000000 then toString (u / 1000000) ++ fractionText u 6 ++ "ms"
    else (if hours > 0 then toString hours ++ "h" else "") ++
      (if minutes > 0 then toString (minutes % 60) ++ "m" else "") ++
      toString (seconds % 60) ++ fractionText u 9 ++ "s"
  if d < 0 then "-" ++ abs else abs

example : text 3660500000000 = "1h1m0.5s" := by decide

end Duration
