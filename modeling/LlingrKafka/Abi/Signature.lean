import LlingrKafka.Foundations.Text
import LlingrKafka.Foundations.Utf8
import LlingrKafka.Foundations.Words
import Mathlib.Data.List.Infix

/-!
# The signature of a header

`strip_comments` and `abi_signature` (`abi-check/build.rs`).  A header is its bytes.

The scanner reads the bytes by index, so reading out of bounds has no value, and its loops have
fuel: `none` is a read past the end or a loop that has not come to an end.  Every byte it keeps
becomes the character of the same code.  `split_whitespace` splits at the characters that
`Text.isSpace` accepts.

The signature only depends on the statements as they are without superfluous white space;
`signatureOf_gap` says what this means for a change of one gap.
-/

namespace LlingrKafka.Abi

open Utf8

/-- `b'/'`. -/
def slash : UInt8 := 47

/-- `b'*'`. -/
def star : UInt8 := 42

/-- `b'\n'`. -/
def newline : UInt8 := 10

/-- `b[i] == x && b[i + 1] == y`. -/
def readsPair (b : Bytes) (i : ℕ) (x y : UInt8) : Option Bool :=
  match b[i]? with
  | none => none
  | some c =>
      if c = x then
        match b[i + 1]? with
        | none => none
        | some d => some (d == y)
      else some false

/-- The condition of the two comment branches. -/
def opensComment (b : Bytes) (i : ℕ) (y : UInt8) : Option Bool :=
  if i + 1 < b.length then readsPair b i slash y else some false

/-- The loop over a block comment. -/
def skipBlock (b : Bytes) : ℕ → ℕ → Option ℕ
  | 0, _ => none
  | fuel + 1, i =>
      if i + 1 < b.length then
        (readsPair b i star slash).bind fun closed =>
          if closed then some i else skipBlock b fuel (i + 1)
      else some i

/-- The loop over a line comment. -/
def skipLine (b : Bytes) : ℕ → ℕ → Option ℕ
  | 0, _ => none
  | fuel + 1, i =>
      if i < b.length then
        match b[i]? with
        | none => none
        | some c => if c = newline then some i else skipLine b fuel (i + 1)
      else some i

/-- The loop of `strip_comments`. -/
def stripLoop (b : Bytes) : ℕ → ℕ → List Char → Option (List Char)
  | 0, _, _ => none
  | fuel + 1, i, out =>
      if i < b.length then
        (opensComment b i star).bind fun block =>
          if block then
            (skipBlock b fuel (i + 2)).bind fun j => stripLoop b fuel (j + 2) (out ++ [' '])
          else
            (opensComment b i slash).bind fun line =>
              if line then (skipLine b fuel (i + 2)).bind fun j => stripLoop b fuel j out
              else
                match b[i]? with
                | none => none
                | some c => stripLoop b fuel (i + 1) (out ++ [Char.ofNat c.toNat])
      else some out

/-- `strip_comments`. -/
def stripComments (src : Bytes) : Option (List Char) := stripLoop src (src.length + 1) 0 []

/-- A statement without superfluous white space: its words with a blank between them. -/
def collapse (stmt : List Char) : List Char := [' '].intercalate (Words.words Text.isSpace stmt)

/-- The statement mentions `llingr_`. -/
def mentions (stmt : List Char) : Bool := decide ("llingr_".toList <:+: stmt)

/-- What `abi_signature` makes of the stripped header. -/
def signatureOf (out : List Char) : List Char :=
  ";\n".toList.intercalate (((out.splitOn ';').map collapse).filter mentions)

/-- `abi_signature`. -/
def abiSignature (headerSrc : Bytes) : Option (List Char) :=
  (stripComments headerSrc).map signatureOf

/-! ## White space -/

theorem collapse_gap {gap gap' : List Char} (hne : gap ≠ []) (hne' : gap' ≠ [])
    (hgap : ∀ c ∈ gap, Text.isSpace c = true) (hgap' : ∀ c ∈ gap', Text.isSpace c = true)
    (before after : List Char) :
    collapse (before ++ gap ++ after) = collapse (before ++ gap' ++ after) := by
  rw [collapse, Words.words_gap hne hgap, collapse, Words.words_gap hne' hgap']

/-- The signature does not see how wide a gap is. -/
theorem signatureOf_gap {gap gap' : List Char} (hne : gap ≠ []) (hne' : gap' ≠ [])
    (hgap : ∀ c ∈ gap, Text.isSpace c = true) (hgap' : ∀ c ∈ gap', Text.isSpace c = true)
    (before after : List Char) :
    signatureOf (before ++ gap ++ after) = signatureOf (before ++ gap' ++ after) := by
  obtain ⟨init, last, first, rest, hsplit⟩ :=
    @Words.exists_splitOn_gap _ _ ';' before after
  have hsemi : ∀ {cs : List Char}, (∀ c ∈ cs, Text.isSpace c = true) → ';' ∉ cs := by
    intro cs hcs hmem
    exact absurd (hcs ';' hmem) (by decide)
  rw [signatureOf, hsplit gap (hsemi hgap), signatureOf, hsplit gap' (hsemi hgap')]
  simp only [List.map_append, List.map_cons, collapse_gap hne hne' hgap hgap']

end LlingrKafka.Abi
