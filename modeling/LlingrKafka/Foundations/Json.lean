import Mathlib.Data.Int.Notation
import Mathlib.Data.List.Basic
import Mathlib.Data.Nat.Notation
import Mathlib.Tactic.Common

/-!
# JSON texts

Trees, and a parser that follows RFC 8259 on a list of characters, down to a bound on
the nesting.  `Parses depth text j` says that wherever `text` stands in a document, the
parser makes `j` of it; there is one rule for each kind of value (`parses_str`,
`parses_nat`, `parses_obj`), so that a text put together from parts is parsed by putting
the rules together.

Strings are read as JavaScript does: an escaped surrogate pair is one character, and a
surrogate on its own is U+FFFD.
-/

/-- A JSON value.  Numbers keep their literal, objects all their members in order. -/
inductive Json
  | null
  | bool (b : Bool)
  | num (literal : List Char)
  | str (s : String)
  | arr (items : List Json)
  | obj (members : List (String × Json))

namespace Json

/-- No object in the tree repeats a member name. -/
inductive Distinct : Json → Prop
  | null : Distinct .null
  | bool (b : Bool) : Distinct (.bool b)
  | num (literal : List Char) : Distinct (.num literal)
  | str (s : String) : Distinct (.str s)
  | arr (items : List Json) (hitems : ∀ j ∈ items, Distinct j) : Distinct (.arr items)
  | obj (members : List (String × Json)) (hnames : (members.map Prod.fst).Nodup)
      (hvalues : ∀ m ∈ members, Distinct m.2) : Distinct (.obj members)

/-! ## Lexing -/

def isSpace (c : Char) : Bool := c == ' ' || c == '\t' || c == '\n' || c == '\r'

def skipSpace (cs : List Char) : List Char := cs.dropWhile isSpace

/-- A unit of a string literal: a character as it stands or after a one-letter escape, or
the code of a `\u` escape. -/
inductive TextUnit
  | char (c : Char)
  | code (n : ℕ)

def hexValue (c : Char) : Option ℕ :=
  if '0' ≤ c ∧ c ≤ '9' then some (c.toNat - 48)
  else if 'a' ≤ c ∧ c ≤ 'f' then some (c.toNat - 87)
  else if 'A' ≤ c ∧ c ≤ 'F' then some (c.toNat - 55)
  else none

def hexCode (a b c d : Char) : Option ℕ :=
  (hexValue a).bind fun a => (hexValue b).bind fun b => (hexValue c).bind fun c =>
    (hexValue d).map fun d => ((a * 16 + b) * 16 + c) * 16 + d

/-- The character behind a backslash. -/
def unescape (c : Char) : Option Char :=
  if c = '"' ∨ c = '\\' ∨ c = '/' then some c
  else if c = 'b' then some (Char.ofNat 8)
  else if c = 'f' then some (Char.ofNat 12)
  else if c = 'n' then some '\n'
  else if c = 'r' then some '\r'
  else if c = 't' then some '\t'
  else none

/-- The units up to the closing quote, and what follows it. -/
def lexUnits : List Char → Option (List TextUnit × List Char)
  | [] => none
  | '"' :: rest => some ([], rest)
  | '\\' :: 'u' :: a :: b :: c :: d :: rest =>
      (hexCode a b c d).bind fun n => (lexUnits rest).map fun r => (.code n :: r.1, r.2)
  | '\\' :: c :: rest =>
      (unescape c).bind fun c => (lexUnits rest).map fun r => (.char c :: r.1, r.2)
  | c :: rest =>
      if c < ' ' then none else (lexUnits rest).map fun r => (.char c :: r.1, r.2)

/-- The characters of the units: surrogate pairs are joined, lone surrogates replaced. -/
def unitsText : List TextUnit → List Char
  | [] => []
  | .char c :: rest => c :: unitsText rest
  | .code hi :: .code lo :: rest =>
      if 0xD800 ≤ hi ∧ hi < 0xDC00 ∧ 0xDC00 ≤ lo ∧ lo < 0xE000 then
        Char.ofNat ((hi - 0xD800) * 0x400 + (lo - 0xDC00) + 0x10000) :: unitsText rest
      else if 0xD800 ≤ hi ∧ hi < 0xE000 then '\uFFFD' :: unitsText (.code lo :: rest)
      else Char.ofNat hi :: unitsText (.code lo :: rest)
  | .code n :: rest =>
      (if 0xD800 ≤ n ∧ n < 0xE000 then '\uFFFD' else Char.ofNat n) :: unitsText rest

/-- A string literal behind its opening quote. -/
def parseText (cs : List Char) : Option (String × List Char) :=
  (lexUnits cs).map fun r => (String.ofList (unitsText r.1), r.2)

/-- A run of digits, and the rest. -/
def takeDigits (cs : List Char) : List Char × List Char :=
  (cs.takeWhile Char.isDigit, cs.dropWhile Char.isDigit)

/-- The digits of a number before its fraction: no leading zero. -/
def parseInteger : List Char → Option (List Char × List Char)
  | '0' :: rest => some (['0'], rest)
  | c :: rest =>
      if c.isDigit then some (c :: (takeDigits rest).1, (takeDigits rest).2) else none
  | [] => none

def parseFraction : List Char → Option (List Char × List Char)
  | '.' :: rest =>
      if (takeDigits rest).1 = [] then none
      else some ('.' :: (takeDigits rest).1, (takeDigits rest).2)
  | cs => some ([], cs)

/-- The sign of an exponent. -/
def takeSign : List Char → List Char × List Char
  | '+' :: rest => (['+'], rest)
  | '-' :: rest => (['-'], rest)
  | cs => ([], cs)

def parseExponent : List Char → Option (List Char × List Char)
  | [] => some ([], [])
  | c :: rest =>
      if c = 'e' ∨ c = 'E' then
        let sign := takeSign rest
        let digits := takeDigits sign.2
        if digits.1 = [] then none else some (c :: sign.1 ++ digits.1, digits.2)
      else some ([], c :: rest)

/-- A number behind its sign. -/
def parseMagnitude (cs : List Char) : Option (List Char × List Char) :=
  (parseInteger cs).bind fun int =>
    (parseFraction int.2).bind fun frac =>
      (parseExponent frac.2).map fun exp => (int.1 ++ frac.1 ++ exp.1, exp.2)

def parseNumber : List Char → Option (List Char × List Char)
  | '-' :: rest => (parseMagnitude rest).map fun r => ('-' :: r.1, r.2)
  | cs => parseMagnitude cs

/-- The rest behind an expected word. -/
def expect : List Char → List Char → Option (List Char)
  | [], cs => some cs
  | w :: word, c :: cs => if w = c then expect word cs else none
  | _ :: _, [] => none

/-! ## Parsing -/

mutual

/-- One value with `depth` more levels of nesting allowed, and what follows it. -/
def parseValue : ℕ → ℕ → List Char → Option (Json × List Char)
  | 0, _, _ => none
  | fuel + 1, depth, cs =>
      match skipSpace cs with
      | '"' :: rest => (parseText rest).map fun r => (.str r.1, r.2)
      | '{' :: rest =>
          match depth with
          | 0 => none
          | depth + 1 =>
              match skipSpace rest with
              | '}' :: rest => some (.obj [], rest)
              | rest => (parseMembers fuel depth rest).map fun r => (.obj r.1, r.2)
      | '[' :: rest =>
          match depth with
          | 0 => none
          | depth + 1 =>
              match skipSpace rest with
              | ']' :: rest => some (.arr [], rest)
              | rest => (parseItems fuel depth rest).map fun r => (.arr r.1, r.2)
      | 't' :: rest => (expect ['r', 'u', 'e'] rest).map fun rest => (.bool true, rest)
      | 'f' :: rest => (expect ['a', 'l', 's', 'e'] rest).map fun rest => (.bool false, rest)
      | 'n' :: rest => (expect ['u', 'l', 'l'] rest).map fun rest => (.null, rest)
      | cs => (parseNumber cs).map fun r => (.num r.1, r.2)

/-- The members of an object up to its closing brace. -/
def parseMembers : ℕ → ℕ → List Char → Option (List (String × Json) × List Char)
  | 0, _, _ => none
  | fuel + 1, depth, cs =>
      match skipSpace cs with
      | '"' :: rest =>
          (parseText rest).bind fun name =>
            match skipSpace name.2 with
            | ':' :: rest =>
                (parseValue fuel depth rest).bind fun value =>
                  match skipSpace value.2 with
                  | ',' :: rest =>
                      (parseMembers fuel depth rest).map fun r => ((name.1, value.1) :: r.1, r.2)
                  | '}' :: rest => some ([(name.1, value.1)], rest)
                  | _ => none
            | _ => none
      | _ => none

/-- The items of an array up to its closing bracket. -/
def parseItems : ℕ → ℕ → List Char → Option (List Json × List Char)
  | 0, _, _ => none
  | fuel + 1, depth, cs =>
      (parseValue fuel depth cs).bind fun value =>
        match skipSpace value.2 with
        | ',' :: rest => (parseItems fuel depth rest).map fun r => (value.1 :: r.1, r.2)
        | ']' :: rest => some ([value.1], rest)
        | _ => none

end

/-- The first value of a text, and what follows it. -/
def parseFirst (depth : ℕ) (cs : List Char) : Option (Json × List Char) :=
  parseValue (cs.length + 1) depth cs

/-- A text that is one value. -/
def parse (depth : ℕ) (cs : List Char) : Option Json :=
  (parseFirst depth cs).bind fun r => if skipSpace r.2 = [] then some r.1 else none

/-! ## Writing -/

def hexDigit (n : ℕ) : Char := if n < 10 then Char.ofNat (48 + n) else Char.ofNat (87 + n)

/-- A character of a string literal, escaped if it has to be. -/
def escapeChar (c : Char) : List Char :=
  if c = '"' then ['\\', '"']
  else if c = '\\' then ['\\', '\\']
  else if c = '\n' then ['\\', 'n']
  else if c = '\r' then ['\\', 'r']
  else if c = '\t' then ['\\', 't']
  else if c < ' ' then ['\\', 'u', '0', '0', hexDigit (c.toNat / 16), hexDigit (c.toNat % 16)]
  else [c]

/-- A string literal. -/
def strText (s : String) : List Char := '"' :: s.toList.flatMap escapeChar ++ ['"']

/-- A member: its name, its value and the text of the value. -/
structure Member where
  name : String
  value : Json
  text : List Char

def Member.render (m : Member) : List Char := strText m.name ++ ':' :: m.text

/-- Members with commas between them. -/
def membersText : List Member → List Char
  | [] => []
  | [m] => m.render
  | m :: rest => m.render ++ ',' :: membersText rest

/-- Characters that are not escaped stand for themselves. -/
theorem strText_plain {s : String} (h : ∀ c ∈ s.toList, escapeChar c = [c]) :
    strText s = '"' :: s.toList ++ ['"'] := by
  have hflat : ∀ cs : List Char, (∀ c ∈ cs, escapeChar c = [c]) → cs.flatMap escapeChar = cs := by
    intro cs hcs
    induction cs with
    | nil => rfl
    | cons c cs ih =>
        rw [List.flatMap_cons, hcs c List.mem_cons_self,
          ih fun d hd => hcs d (List.mem_cons_of_mem _ hd)]
        rfl
  rw [strText, hflat _ h]

theorem membersText_cons_cons (m m' : Member) (ms : List Member) :
    membersText (m :: m' :: ms) = m.render ++ ',' :: membersText (m' :: ms) := rfl

/-- An object. -/
def objText (ms : List Member) : List Char := '{' :: membersText ms ++ ['}']

def objValue (ms : List Member) : Json := .obj (ms.map fun m => (m.name, m.value))

/-! ## What the parser makes of it -/

/-- A character that may follow a value. -/
def Delimited (rest : List Char) : Prop :=
  ∀ c ∈ rest.head?, c = ',' ∨ c = '}' ∨ c = ']'

/-- Wherever `text` stands, it is parsed to `j`. -/
def Parses (depth : ℕ) (text : List Char) (j : Json) : Prop :=
  ∀ fuel rest, text.length < fuel → Delimited rest →
    parseValue fuel depth (text ++ rest) = some (j, rest)

theorem hexValue_hexDigit {n : ℕ} (h : n < 16) : hexValue (hexDigit n) = some n := by
  have hall : ∀ n < 16, hexValue (hexDigit n) = some n := by decide
  exact hall n h

theorem lexUnits_char {c : Char} (hquote : c ≠ '"') (hslash : c ≠ '\\') (hspace : ' ' ≤ c)
    (cs : List Char) :
    lexUnits (c :: cs) = (lexUnits cs).map fun r => (.char c :: r.1, r.2) := by
  rw [lexUnits.eq_def]
  split
  · simp_all
  · simp_all
  · simp_all
  · simp_all
  · rename_i heq
    obtain ⟨rfl, rfl⟩ := List.cons.inj heq
    exact if_neg (by simpa using hspace)

theorem lexUnits_escape {c d : Char} (hc : c ≠ 'u') (hd : unescape c = some d) (cs : List Char) :
    lexUnits ('\\' :: c :: cs) = (lexUnits cs).map fun r => (.char d :: r.1, r.2) := by
  rw [lexUnits.eq_def]
  split
  · simp_all
  · simp_all
  · simp_all
  · rename_i heq
    obtain ⟨-, heq⟩ := List.cons.inj heq
    obtain ⟨rfl, rfl⟩ := List.cons.inj heq
    rw [hd]
    rfl
  · rename_i hlast heq
    obtain ⟨rfl, rfl⟩ := List.cons.inj heq
    exact absurd rfl (hlast c cs rfl)

theorem unitsText_code {n : ℕ} (hn : n < 0xD800) (us : List TextUnit) :
    unitsText (.code n :: us) = Char.ofNat n :: unitsText us := by
  cases us with
  | nil => simp only [unitsText, if_neg (show ¬ (0xD800 ≤ n ∧ n < 0xE000) by omega)]
  | cons u us =>
      cases u with
      | char c => simp only [unitsText, if_neg (show ¬ (0xD800 ≤ n ∧ n < 0xE000) by omega)]
      | code lo =>
          rw [unitsText, if_neg (by omega), if_neg (by omega)]

/-- An escaped character is lexed to a unit that stands for it. -/
def Escapes (escape : Char → List Char) : Prop :=
  ∀ c cs, ∃ u, (∀ us, unitsText (u :: us) = c :: unitsText us) ∧
    lexUnits (escape c ++ cs) = (lexUnits cs).map fun r => (u :: r.1, r.2)

theorem hexCode_hexDigit {n : ℕ} (h : n < 256) :
    hexCode '0' '0' (hexDigit (n / 16)) (hexDigit (n % 16)) = some n := by
  have hhigh := hexValue_hexDigit (show n / 16 < 16 by omega)
  have hlow := hexValue_hexDigit (show n % 16 < 16 by omega)
  have hzero : hexValue '0' = some 0 := by decide
  simp only [hexCode, hzero, hhigh, hlow, Option.bind_some, Option.map_some]
  congr 1
  omega

theorem lexUnits_code {a b c d : Char} {n : ℕ} (h : hexCode a b c d = some n) (cs : List Char) :
    lexUnits ('\\' :: 'u' :: a :: b :: c :: d :: cs) =
      (lexUnits cs).map fun r => (.code n :: r.1, r.2) := by
  rw [lexUnits, h]
  rfl

theorem escapes_escapeChar : Escapes escapeChar := by
  intro c cs
  unfold escapeChar
  split_ifs with hquote hslash hn hr ht hcontrol
  · exact ⟨.char c, fun us => rfl, by rw [hquote]; exact lexUnits_escape (by decide) (by decide) cs⟩
  · exact ⟨.char c, fun us => rfl, by rw [hslash]; exact lexUnits_escape (by decide) (by decide) cs⟩
  · exact ⟨.char c, fun us => rfl, by rw [hn]; exact lexUnits_escape (by decide) (by decide) cs⟩
  · exact ⟨.char c, fun us => rfl, by rw [hr]; exact lexUnits_escape (by decide) (by decide) cs⟩
  · exact ⟨.char c, fun us => rfl, by rw [ht]; exact lexUnits_escape (by decide) (by decide) cs⟩
  · have hlt : c.toNat < 32 := hcontrol
    refine ⟨.code c.toNat, fun us => ?_, lexUnits_code (hexCode_hexDigit (by omega)) cs⟩
    rw [unitsText_code (by omega), Char.ofNat_toNat]
  · exact ⟨.char c, fun us => rfl, lexUnits_char hquote hslash (by simpa using hcontrol) cs⟩

section

variable {escape : Char → List Char}

/-- The body of a string literal is lexed to units that stand for the text. -/
theorem lexUnits_text (h : Escapes escape) (cs rest : List Char) :
    ∃ us, lexUnits (cs.flatMap escape ++ '"' :: rest) = some (us, rest) ∧
      unitsText us = cs := by
  induction cs with
  | nil => exact ⟨[], by rw [List.flatMap_nil, List.nil_append, lexUnits], rfl⟩
  | cons c cs ih =>
      obtain ⟨us, hlex, htext⟩ := ih
      obtain ⟨u, hunit, hescape⟩ := h c (cs.flatMap escape ++ '"' :: rest)
      refine ⟨u :: us, ?_, ?_⟩
      · rw [List.flatMap_cons, List.append_assoc, hescape, hlex]
        rfl
      · rw [hunit, htext]

theorem parseText_text (h : Escapes escape) (s : String) (rest : List Char) :
    parseText (s.toList.flatMap escape ++ '"' :: rest) = some (s, rest) := by
  obtain ⟨us, hlex, htext⟩ := lexUnits_text h s.toList rest
  rw [parseText, hlex, Option.map_some, htext, String.ofList_toList]

end

theorem strText_append (s : String) (rest : List Char) :
    strText s ++ rest = '"' :: (s.toList.flatMap escapeChar ++ '"' :: rest) := by
  simp [strText]

theorem skipSpace_cons {c : Char} (hc : isSpace c = false) (cs : List Char) :
    skipSpace (c :: cs) = c :: cs := by
  rw [skipSpace, List.dropWhile_cons, hc]
  rfl

/-- A string literal is parsed to its string, however it is escaped. -/
theorem parses_literal {escape : Char → List Char} (h : Escapes escape) (depth : ℕ) (s : String) :
    Parses depth ('"' :: s.toList.flatMap escape ++ ['"']) (.str s) := by
  intro fuel rest hfuel _
  obtain ⟨fuel, rfl⟩ : ∃ n, fuel = n + 1 := ⟨fuel - 1, by omega⟩
  have happend : '"' :: s.toList.flatMap escape ++ ['"'] ++ rest =
      '"' :: (s.toList.flatMap escape ++ '"' :: rest) := by simp
  rw [happend, parseValue, skipSpace_cons (by decide)]
  simp only
  rw [parseText_text h]
  rfl

theorem parses_str (depth : ℕ) (s : String) : Parses depth (strText s) (.str s) :=
  parses_literal escapes_escapeChar depth s

/-! ### Numbers -/

theorem not_isDigit_of_delimited {rest : List Char} (h : Delimited rest) :
    ∀ c ∈ rest.head?, c.isDigit = false := by
  intro c hc
  rcases h c hc with rfl | rfl | rfl
  · decide
  · decide
  · decide

theorem takeDigits_append {ds rest : List Char} (hds : ∀ c ∈ ds, c.isDigit)
    (hrest : ∀ c ∈ rest.head?, c.isDigit = false) : takeDigits (ds ++ rest) = (ds, rest) := by
  have htake : rest.takeWhile Char.isDigit = [] := by
    cases rest with
    | nil => rfl
    | cons c cs => rw [List.takeWhile_cons, hrest c rfl]; rfl
  have hdrop : rest.dropWhile Char.isDigit = rest := by
    cases rest with
    | nil => rfl
    | cons c cs => rw [List.dropWhile_cons, hrest c rfl]; rfl
  rw [takeDigits, List.takeWhile_append_of_pos hds, List.dropWhile_append_of_pos hds, htake,
    hdrop, List.append_nil]

/-- No decimal numeral but zero's starts with a zero. -/
theorem toDigits_head_ne_zero (n : ℕ) (hn : 0 < n) : (Nat.toDigits 10 n).head? ≠ some '0' := by
  induction n using Nat.strongRecOn with
  | ind n ih =>
      by_cases hlt : n < 10
      · have hall : ∀ n < 10, 0 < n → (Nat.toDigits 10 n).head? ≠ some '0' := by decide
        exact hall n hlt hn
      · rw [Nat.toDigits_of_base_le (by decide) (by omega),
          List.head?_append_of_ne_nil _ Nat.toDigits_ne_nil]
        exact ih (n / 10) (by omega) (by omega)

theorem isDigit_of_mem_numeral {n : ℕ} : ∀ c ∈ Nat.toDigits 10 n, c.isDigit :=
  fun _ hc => Nat.isDigit_of_mem_toDigits (by decide) (by decide) hc

theorem parseInteger_numeral (n : ℕ) {rest : List Char}
    (hrest : ∀ c ∈ rest.head?, c.isDigit = false) :
    parseInteger (Nat.toDigits 10 n ++ rest) = some (Nat.toDigits 10 n, rest) := by
  by_cases hn : n = 0
  · rw [hn, Nat.toDigits_zero]
    rfl
  · have hhead := toDigits_head_ne_zero n (by omega)
    have hdigits := isDigit_of_mem_numeral (n := n)
    cases hnumeral : Nat.toDigits 10 n with
    | nil => exact absurd hnumeral Nat.toDigits_ne_nil
    | cons c ds =>
        rw [hnumeral] at hhead hdigits
        have hc : c ≠ '0' := fun h => hhead (by rw [h]; rfl)
        rw [List.cons_append, parseInteger.eq_def]
        split
        · simp_all
        · rename_i heq
          obtain ⟨rfl, rfl⟩ := List.cons.inj heq
          rw [if_pos (hdigits c List.mem_cons_self),
            takeDigits_append (fun d hd => hdigits d (List.mem_cons_of_mem _ hd)) hrest]
        · simp_all

theorem parseFraction_delimited {rest : List Char} (h : Delimited rest) :
    parseFraction rest = some ([], rest) := by
  cases rest with
  | nil => rfl
  | cons c cs => rcases h c rfl with rfl | rfl | rfl <;> rfl

theorem parseExponent_delimited {rest : List Char} (h : Delimited rest) :
    parseExponent rest = some ([], rest) := by
  cases rest with
  | nil => rfl
  | cons c cs => rcases h c rfl with rfl | rfl | rfl <;> rfl

theorem parseMagnitude_numeral (n : ℕ) {rest : List Char} (hrest : Delimited rest) :
    parseMagnitude (Nat.toDigits 10 n ++ rest) = some (Nat.toDigits 10 n, rest) := by
  rw [parseMagnitude, parseInteger_numeral n (not_isDigit_of_delimited hrest), Option.bind_some,
    parseFraction_delimited hrest, Option.bind_some, parseExponent_delimited hrest,
    Option.map_some, List.append_nil, List.append_nil]

/-- A digit starts nothing but a number. -/
theorem parseValue_digit (fuel depth : ℕ) {c : Char} (hc : c.isDigit) (cs : List Char) :
    parseValue (fuel + 1) depth (c :: cs) =
      (parseMagnitude (c :: cs)).map fun r => (.num r.1, r.2) := by
  have hne : ∀ d : Char, d.isDigit = false → c ≠ d := by
    rintro d hd rfl
    rw [hc] at hd
    exact absurd hd (by decide)
  have hspace : isSpace c = false := by
    simp [isSpace, hne ' ' (by decide), hne '\t' (by decide), hne '\n' (by decide),
      hne '\r' (by decide)]
  have hminus : parseNumber (c :: cs) = parseMagnitude (c :: cs) := by
    rw [parseNumber.eq_def]
    split
    · rename_i heq
      exact absurd (List.cons.inj heq).1 (hne '-' (by decide))
    · rfl
  rw [parseValue.eq_def]
  simp only
  rw [skipSpace_cons hspace]
  split
  · rename_i heq
    exact absurd (List.cons.inj heq).1 (hne _ (by decide))
  · rename_i heq
    exact absurd (List.cons.inj heq).1 (hne _ (by decide))
  · rename_i heq
    exact absurd (List.cons.inj heq).1 (hne _ (by decide))
  · rename_i heq
    exact absurd (List.cons.inj heq).1 (hne _ (by decide))
  · rename_i heq
    exact absurd (List.cons.inj heq).1 (hne _ (by decide))
  · rename_i heq
    exact absurd (List.cons.inj heq).1 (hne _ (by decide))
  · rw [hminus]

/-- A decimal numeral is parsed to itself. -/
theorem parses_nat (depth n : ℕ) :
    Parses depth (Nat.toDigits 10 n) (.num (Nat.toDigits 10 n)) := by
  intro fuel rest hfuel hrest
  obtain ⟨fuel, rfl⟩ : ∃ n, fuel = n + 1 := ⟨fuel - 1, by omega⟩
  have hmagnitude := parseMagnitude_numeral n hrest
  cases hnumeral : Nat.toDigits 10 n with
  | nil => exact absurd hnumeral Nat.toDigits_ne_nil
  | cons c ds =>
      have hc := isDigit_of_mem_numeral (n := n) c (by rw [hnumeral]; exact List.mem_cons_self)
      rw [hnumeral] at hmagnitude
      rw [List.cons_append, parseValue_digit fuel depth hc, ← List.cons_append, hmagnitude]
      rfl

theorem toList_toString_neg (n : ℕ) :
    (toString (Int.negSucc n)).toList = '-' :: Nat.toDigits 10 (n + 1) := by
  show ("-" ++ Nat.repr (n + 1)).toList = _
  rw [String.toList_append, Nat.toList_repr]
  rfl

/-- The decimal text of an integer is parsed to itself. -/
theorem parses_int (depth : ℕ) (n : ℤ) :
    Parses depth (toString n).toList (.num (toString n).toList) := by
  cases n with
  | ofNat n =>
      have htext : (toString (Int.ofNat n)).toList = Nat.toDigits 10 n := Nat.toList_repr
      rw [htext]
      exact parses_nat depth n
  | negSucc n =>
      rw [toList_toString_neg]
      intro fuel rest hfuel hrest
      obtain ⟨fuel, rfl⟩ : ∃ n, fuel = n + 1 := ⟨fuel - 1, by omega⟩
      rw [List.cons_append, parseValue, skipSpace_cons (by decide)]
      show (parseNumber ('-' :: (Nat.toDigits 10 (n + 1) ++ rest))).map _ = _
      rw [parseNumber, parseMagnitude_numeral _ hrest]
      rfl

/-! ### Objects -/

theorem delimited_cons {c : Char} (h : c = ',' ∨ c = '}' ∨ c = ']') (rest : List Char) :
    Delimited (c :: rest) := by
  intro d hd
  obtain rfl := Option.some_inj.mp hd
  exact h

theorem render_append (m : Member) (rest : List Char) :
    m.render ++ rest =
      '"' :: (m.name.toList.flatMap escapeChar ++ '"' :: ':' :: (m.text ++ rest)) := by
  rw [Member.render, List.append_assoc, strText_append]
  rfl

theorem length_text_lt_render (m : Member) : m.text.length < m.render.length := by
  rw [Member.render, List.length_append, List.length_cons]
  omega

/-- Members with commas between them, and a gap behind each comma. -/
def gappedText (gap : List Char) : List Member → List Char
  | [] => []
  | [m] => m.render
  | m :: rest => m.render ++ ',' :: (gap ++ gappedText gap rest)

theorem gappedText_nil (ms : List Member) : gappedText [] ms = membersText ms := by
  induction ms with
  | nil => rfl
  | cons m ms ih =>
      cases ms with
      | nil => rfl
      | cons m' ms => exact congrArg (fun text => m.render ++ ',' :: text) ih

theorem skipSpace_append {gap : List Char} (hgap : ∀ c ∈ gap, isSpace c = true) (cs : List Char) :
    skipSpace (gap ++ cs) = skipSpace cs :=
  List.dropWhile_append_of_pos hgap

/-- A value may stand behind white space. -/
theorem Parses.gap {depth : ℕ} {text : List Char} {j : Json} (h : Parses depth text j)
    {gap : List Char} (hgap : ∀ c ∈ gap, isSpace c = true) : Parses depth (gap ++ text) j := by
  intro fuel rest hfuel hrest
  rw [List.length_append] at hfuel
  obtain ⟨fuel, rfl⟩ : ∃ n, fuel = n + 1 := ⟨fuel - 1, by omega⟩
  have hparse := h (fuel + 1) rest (by omega) hrest
  rw [parseValue] at hparse
  rw [List.append_assoc, parseValue, skipSpace_append hgap]
  exact hparse

theorem parseMembers_gap (fuel depth : ℕ) {gap : List Char} (hgap : ∀ c ∈ gap, isSpace c = true)
    (cs : List Char) : parseMembers fuel depth (gap ++ cs) = parseMembers fuel depth cs := by
  cases fuel with
  | zero => rw [parseMembers, parseMembers]
  | succ fuel => rw [parseMembers, parseMembers, skipSpace_append hgap]

/-- Members with commas between them are parsed up to the closing brace. -/
theorem parseMembers_gappedText {gap : List Char} (hgap : ∀ c ∈ gap, isSpace c = true) (depth : ℕ)
    (ms : List Member) (hne : ms ≠ []) (hparses : ∀ m ∈ ms, Parses depth m.text m.value) :
    ∀ fuel rest, (gappedText gap ms).length < fuel →
      parseMembers fuel depth (gappedText gap ms ++ '}' :: rest) =
        some (ms.map fun m => (m.name, m.value), rest) := by
  induction ms with
  | nil => exact absurd rfl hne
  | cons m ms ih =>
      intro fuel rest hfuel
      obtain ⟨fuel, rfl⟩ : ∃ n, fuel = n + 1 := ⟨fuel - 1, by omega⟩
      have hm := hparses m List.mem_cons_self
      have hlength := length_text_lt_render m
      cases ms with
      | nil =>
          rw [gappedText] at hfuel ⊢
          rw [render_append, parseMembers, skipSpace_cons (by decide)]
          simp only
          rw [parseText_text escapes_escapeChar, Option.bind_some, skipSpace_cons (by decide)]
          simp only
          rw [hm fuel _ (by omega) (delimited_cons (by simp) rest), Option.bind_some,
            skipSpace_cons (by decide)]
          rfl
      | cons m' ms =>
          have hrest := ih (List.cons_ne_nil _ _)
            fun m hm => hparses m (List.mem_cons_of_mem _ hm)
          have hcons : gappedText gap (m :: m' :: ms) =
              m.render ++ ',' :: (gap ++ gappedText gap (m' :: ms)) := rfl
          rw [hcons, List.length_append, List.length_cons, List.length_append] at hfuel
          rw [hcons, List.append_assoc, List.cons_append, render_append, parseMembers,
            skipSpace_cons (by decide)]
          simp only
          rw [parseText_text escapes_escapeChar, Option.bind_some, skipSpace_cons (by decide)]
          simp only
          rw [hm fuel _ (by omega) (delimited_cons (by simp) _), Option.bind_some,
            skipSpace_cons (by decide)]
          simp only
          rw [List.append_assoc, parseMembers_gap fuel depth hgap, hrest fuel rest (by omega)]
          rfl

/-- An object is parsed to its members, one level deeper than they are. -/
theorem parses_gapped {gap : List Char} (hgap : ∀ c ∈ gap, isSpace c = true) (depth : ℕ)
    (ms : List Member) (hparses : ∀ m ∈ ms, Parses depth m.text m.value) :
    Parses (depth + 1) ('{' :: gappedText gap ms ++ ['}']) (objValue ms) := by
  intro fuel rest hfuel hrest
  obtain ⟨fuel, rfl⟩ : ∃ n, fuel = n + 1 := ⟨fuel - 1, by omega⟩
  have htext : '{' :: gappedText gap ms ++ ['}'] ++ rest =
      '{' :: (gappedText gap ms ++ '}' :: rest) := by simp
  have hlength : (gappedText gap ms).length < fuel := by
    simp at hfuel
    omega
  rw [htext, parseValue, skipSpace_cons (by decide)]
  simp only
  cases ms with
  | nil => rfl
  | cons m ms =>
      have hmembers := parseMembers_gappedText hgap depth (m :: ms) (List.cons_ne_nil _ _) hparses
        fuel rest hlength
      obtain ⟨cs, hquote⟩ : ∃ cs, gappedText gap (m :: ms) ++ '}' :: rest = '"' :: cs := by
        cases ms with
        | nil => exact ⟨_, by rw [gappedText, render_append]⟩
        | cons m' ms =>
            exact ⟨_, by rw [gappedText, List.append_assoc, render_append]; intro h; cases h⟩
      rw [hquote] at hmembers ⊢
      rw [skipSpace_cons (by decide)]
      show (parseMembers fuel depth ('"' :: cs)).map _ = _
      rw [hmembers]
      rfl

theorem parses_obj (depth : ℕ) (ms : List Member)
    (hparses : ∀ m ∈ ms, Parses depth m.text m.value) :
    Parses (depth + 1) (objText ms) (objValue ms) := by
  have hgap : ∀ c ∈ ([] : List Char), isSpace c = true := fun _ hc => absurd hc List.not_mem_nil
  have hparse := parses_gapped hgap depth ms hparses
  rwa [gappedText_nil] at hparse

/-! ### Whole texts -/

theorem parseFirst_of_parses {depth : ℕ} {text : List Char} {j : Json}
    (h : Parses depth text j) : parseFirst depth text = some (j, []) := by
  have hnil : Delimited [] := by
    intro c hc
    cases hc
  have hparse := h (text.length + 1) [] (by omega) hnil
  rwa [List.append_nil] at hparse

theorem parse_of_parses {depth : ℕ} {text : List Char} {j : Json} (h : Parses depth text j) :
    parse depth text = some j := by
  rw [parse, parseFirst_of_parses h]
  rfl

/-! ### No control characters -/

theorem space_le_escapeChar (c : Char) : ∀ d ∈ escapeChar c, ' ' ≤ d := by
  have hdigit : ∀ n < 16, ' ' ≤ hexDigit n := by decide
  have hall : ∀ e : Char, ' ' ≤ e → ∀ d ∈ ['\\', e], ' ' ≤ d := by
    intro e he d hd
    simp only [List.mem_cons, List.not_mem_nil, or_false] at hd
    rcases hd with rfl | rfl
    · decide
    · exact he
  intro d hd
  unfold escapeChar at hd
  split_ifs at hd with hquote hslash hn hr ht hcontrol
  · exact hall _ (by decide) d hd
  · exact hall _ (by decide) d hd
  · exact hall _ (by decide) d hd
  · exact hall _ (by decide) d hd
  · exact hall _ (by decide) d hd
  · have hlt : c.toNat < 32 := hcontrol
    simp only [List.mem_cons, List.not_mem_nil, or_false] at hd
    rcases hd with rfl | rfl | rfl | rfl | rfl | rfl
    · decide
    · decide
    · decide
    · decide
    · exact hdigit _ (by omega)
    · exact hdigit _ (by omega)
  · obtain rfl := List.mem_singleton.mp hd
    simpa using hcontrol

theorem space_le_strText (s : String) : ∀ d ∈ strText s, ' ' ≤ d := by
  intro d hd
  simp only [strText, List.cons_append, List.mem_cons, List.mem_append, List.mem_flatMap,
    List.not_mem_nil, or_false] at hd
  rcases hd with rfl | ⟨c, -, hd⟩ | rfl
  · decide
  · exact space_le_escapeChar c d hd
  · decide

theorem escapeChar_digit {c : Char} (hc : c.isDigit) : escapeChar c = [c] := by
  have hne : ∀ d : Char, d.isDigit = false → c ≠ d := by
    rintro d hd rfl
    rw [hc] at hd
    exact absurd hd (by decide)
  have hspace : ¬ c < ' ' := by
    simp only [Char.isDigit, Bool.and_eq_true, decide_eq_true_eq] at hc
    have hle : ' ' ≤ c := UInt32.le_trans (by decide) hc.1
    simpa using hle
  simp [escapeChar, hne '"' (by decide), hne '\\' (by decide), hne '\n' (by decide),
    hne '\r' (by decide), hne '\t' (by decide), hspace]

theorem space_le_numeral (n : ℕ) : ∀ d ∈ Nat.toDigits 10 n, ' ' ≤ d := by
  intro d hd
  have hdigit := isDigit_of_mem_numeral d hd
  simp only [Char.isDigit, Bool.and_eq_true, decide_eq_true_eq] at hdigit
  exact UInt32.le_trans (by decide) hdigit.1

theorem space_le_membersText {ms : List Member} (h : ∀ m ∈ ms, ∀ d ∈ m.text, ' ' ≤ d) :
    ∀ d ∈ membersText ms, ' ' ≤ d := by
  induction ms with
  | nil =>
      intro d hd
      cases hd
  | cons m ms ih =>
      have hrender : ∀ d ∈ m.render, ' ' ≤ d := by
        intro d hd
        rw [Member.render, List.mem_append, List.mem_cons] at hd
        rcases hd with hd | rfl | hd
        · exact space_le_strText _ d hd
        · decide
        · exact h m List.mem_cons_self d hd
      intro d hd
      cases ms with
      | nil => exact hrender d hd
      | cons m' ms =>
          rw [membersText_cons_cons, List.mem_append, List.mem_cons] at hd
          rcases hd with hd | rfl | hd
          · exact hrender d hd
          · decide
          · exact ih (fun m hm => h m (List.mem_cons_of_mem _ hm)) d hd

theorem space_le_objText {ms : List Member} (h : ∀ m ∈ ms, ∀ d ∈ m.text, ' ' ≤ d) :
    ∀ d ∈ objText ms, ' ' ≤ d := by
  intro d hd
  simp only [objText, List.cons_append, List.mem_cons, List.mem_append, List.not_mem_nil,
    or_false] at hd
  rcases hd with rfl | hd | rfl
  · decide
  · exact space_le_membersText h d hd
  · decide

theorem distinct_objValue {ms : List Member} (hnames : (ms.map Member.name).Nodup)
    (hvalues : ∀ m ∈ ms, Distinct m.value) : Distinct (objValue ms) := by
  apply Distinct.obj
  · simpa [Function.comp_def] using hnames
  · intro m hm
    obtain ⟨member, hmem, rfl⟩ := List.mem_map.mp hm
    exact hvalues member hmem

end Json
