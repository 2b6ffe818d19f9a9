import LlingrKafka.Abi.Signature
import Mathlib.Data.List.Chain

/-!
# Comments

A header is read as pieces: single bytes of code, block comments and line comments, and a block
comment that the header ends in.  `Lexed` says that the pieces are the ones C finds, if no
literal has a comment opener in it and no line is continued: a comment ends at its first
delimiter, and no two bytes of code open one.

Every header is one list of pieces (`exists_lexed`), and the scanner leaves of each piece what
`Piece.stripped` says (`stripLoop_lexed`).  Two cases are not what they look like: a line
comment runs up to its newline, which is code, and the header may end inside a comment.
-/

namespace LlingrKafka.Abi

open Utf8

/-- A part of a header. -/
inductive Piece
  | byte (b : UInt8)
  | block (interior : Bytes)
  | line (interior : Bytes)
  | openBlock (interior : Bytes)
  deriving DecidableEq, Repr

namespace Piece

def text : Piece → Bytes
  | byte b => [b]
  | block interior => slash :: star :: (interior ++ [star, slash])
  | line interior => slash :: slash :: interior
  | openBlock interior => slash :: star :: interior

/-- What is left of a piece. -/
def stripped : Piece → List Char
  | byte b => [Char.ofNat b.toNat]
  | block _ => [' ']
  | line _ => []
  | openBlock _ => [' ']

/-- The first byte. -/
def first : Piece → UInt8
  | byte b => b
  | _ => slash

end Piece

/-- No end of a block comment. -/
def NoClose (interior : Bytes) : Prop := ¬ [star, slash] <:+: interior

/-- A comment has no delimiter inside. -/
def Piece.Good : Piece → Prop
  | byte _ => True
  | block interior => NoClose interior
  | line interior => newline ∉ interior
  | openBlock interior => NoClose interior

/-- `q` may come right behind `p`. -/
def Follows (p q : Piece) : Prop :=
  match p with
  | .byte b => b = slash → q.first ≠ slash ∧ q.first ≠ star
  | .block _ => True
  | .line _ => q = .byte newline
  | .openBlock _ => False

instance : DecidableRel Follows
  | .byte b, q => inferInstanceAs (Decidable (b = slash → q.first ≠ slash ∧ q.first ≠ star))
  | .block _, _ => .isTrue trivial
  | .line _, q => inferInstanceAs (Decidable (q = .byte newline))
  | .openBlock _, _ => .isFalse id

/-- The pieces are what their text is read as. -/
structure Lexed (ps : List Piece) : Prop where
  good : ∀ p ∈ ps, p.Good
  follows : ps.IsChain Follows

def textOf (ps : List Piece) : Bytes := ps.flatMap Piece.text

@[simp] theorem textOf_cons (p : Piece) (ps : List Piece) :
    textOf (p :: ps) = p.text ++ textOf ps := rfl

theorem head?_textOf (ps : List Piece) : (textOf ps).head? = ps.head?.map Piece.first := by
  cases ps with
  | nil => rfl
  | cons p ps => cases p <;> rfl

theorem eq_byte_of_first {p : Piece} {b : UInt8} (h : p.first = b) (hb : b ≠ slash) :
    p = .byte b := by
  cases p with
  | byte c => exact congrArg Piece.byte h
  | block _ => exact absurd h.symm hb
  | line _ => exact absurd h.symm hb
  | openBlock _ => exact absurd h.symm hb

theorem Lexed.tail {p : Piece} {ps : List Piece} (h : Lexed (p :: ps)) : Lexed ps where
  good := fun q hq => h.good q (List.mem_cons_of_mem _ hq)
  follows := h.follows.tail

/-- What is left of code. -/
theorem stripped_bytes (bytes : Bytes) :
    (bytes.map Piece.byte).flatMap Piece.stripped = bytes.map fun b => Char.ofNat b.toNat := by
  induction bytes with
  | nil => rfl
  | cons b bytes ih =>
      rw [List.map_cons, List.flatMap_cons, ih]
      rfl

theorem textOf_bytes (bytes : Bytes) : textOf (bytes.map Piece.byte) = bytes := by
  induction bytes with
  | nil => rfl
  | cons b bytes ih =>
      rw [List.map_cons, textOf_cons, ih]
      rfl

/-! ## Every header -/

/-- The first end of a block comment. -/
theorem noClose_or_split (bytes : Bytes) :
    NoClose bytes ∨ ∃ interior rest, bytes = interior ++ star :: slash :: rest ∧
      NoClose interior := by
  induction bytes with
  | nil => exact .inl (by simp [NoClose])
  | cons c bytes ih =>
      by_cases hclose : [star, slash] <+: c :: bytes
      · obtain ⟨rest, hrest⟩ := hclose
        exact .inr ⟨[], rest, hrest.symm, by simp [NoClose]⟩
      · rcases ih with hno | ⟨interior, rest, rfl, hno⟩
        · refine .inl fun hinfix => ?_
          rcases List.infix_cons_iff.mp hinfix with hfront | hinfix
          · exact hclose hfront
          · exact hno hinfix
        · refine .inr ⟨c :: interior, rest, rfl, fun hinfix => ?_⟩
          rcases List.infix_cons_iff.mp hinfix with hfront | hinfix
          · exact hclose (hfront.trans ⟨star :: slash :: rest, rfl⟩)
          · exact hno hinfix

/-- A line ends at its newline. -/
theorem exists_line (bytes : Bytes) :
    ∃ interior rest, bytes = interior ++ rest ∧ newline ∉ interior ∧
      ∀ c ∈ rest.head?, c = newline := by
  induction bytes with
  | nil => exact ⟨[], [], rfl, List.not_mem_nil, fun c hc => by cases hc⟩
  | cons c bytes ih =>
      by_cases hc : c = newline
      · exact ⟨[], c :: bytes, rfl, List.not_mem_nil, fun d hd => Option.some_inj.mp hd ▸ hc⟩
      · obtain ⟨interior, rest, rfl, hinterior, hrest⟩ := ih
        exact ⟨c :: interior, rest, rfl, List.not_mem_cons_of_ne_of_not_mem (Ne.symm hc) hinterior,
          hrest⟩

/-- A piece in front of a header that is read already. -/
theorem Lexed.cons {p : Piece} {ps : List Piece} (h : Lexed ps) (hgood : p.Good)
    (hfollows : ∀ q ∈ ps.head?, Follows p q) : Lexed (p :: ps) where
  good := List.forall_mem_cons.mpr ⟨hgood, h.good⟩
  follows := List.isChain_cons.mpr ⟨hfollows, h.follows⟩

/-- Every header is read as some pieces. -/
theorem exists_lexed (src : Bytes) : ∃ ps, Lexed ps ∧ textOf ps = src := by
  induction hlength : src.length using Nat.strongRecOn generalizing src with
  | ind n ih =>
      subst hlength
      have hrest : ∀ rest : Bytes, rest.length < src.length → ∃ ps, Lexed ps ∧ textOf ps = rest :=
        fun rest hlt => ih rest.length hlt rest rfl
      cases src with
      | nil => exact ⟨[], ⟨by simp, List.isChain_nil⟩, rfl⟩
      | cons c rest =>
          by_cases hblock : c = slash ∧ rest.head? = some star
          -- "/*": a block up to the first "*/", or an open one up to the end
          · obtain ⟨rfl, hstar⟩ := hblock
            obtain ⟨rest, rfl⟩ := List.head?_eq_some_iff.mp hstar
            rcases noClose_or_split rest with hno | ⟨interior, rest, rfl, hno⟩
            · have hlexed : Lexed [.openBlock rest] :=
                ⟨List.forall_mem_singleton.mpr hno, List.isChain_singleton _⟩
              exact ⟨[.openBlock rest], hlexed, by simp [textOf, Piece.text]⟩
            · obtain ⟨ps, hps, rfl⟩ := hrest rest (by simp; omega)
              exact ⟨.block interior :: ps, hps.cons hno fun _ _ => trivial, by simp [Piece.text]⟩
          · by_cases hline : c = slash ∧ rest.head? = some slash
            -- "//": a line comment stops in front of the newline, which begins the next piece
            · obtain ⟨rfl, hslash⟩ := hline
              obtain ⟨rest, rfl⟩ := List.head?_eq_some_iff.mp hslash
              obtain ⟨interior, after, rfl, hinterior, hafter⟩ := exists_line rest
              obtain ⟨ps, hps, rfl⟩ := hrest after (by simp; omega)
              refine ⟨.line interior :: ps, hps.cons hinterior ?_, by simp [Piece.text]⟩
              intro q hq
              refine eq_byte_of_first (hafter q.first ?_) (by decide)
              rw [head?_textOf, Option.mem_def.mp hq]
              rfl
            -- any other byte stands alone
            · obtain ⟨ps, hps, rfl⟩ := hrest rest (by simp)
              refine ⟨.byte c :: ps, hps.cons trivial ?_, rfl⟩
              rintro q hq rfl
              rw [head?_textOf, Option.mem_def.mp hq] at hblock hline
              simp only [Option.map_some, Option.some_inj, true_and] at hblock hline
              exact ⟨hline, hblock⟩

/-! ## The scanner -/

section

variable {b : Bytes} {i fuel : ℕ} {rest : Bytes}

theorem drop_succ {c : UInt8} (h : b.drop i = c :: rest) : b.drop (i + 1) = rest := by
  rw [← List.drop_drop, h]
  rfl

theorem drop_append {front : Bytes} (h : b.drop i = front ++ rest) :
    b.drop (i + front.length) = rest := by
  rw [← List.drop_drop, h, List.drop_left]

theorem lt_of_drop {c : UInt8} (h : b.drop i = c :: rest) : i < b.length := by
  by_contra hge
  rw [List.drop_eq_nil_of_le (Nat.le_of_not_lt hge)] at h
  cases h

theorem getElem?_of_drop {c : UInt8} (h : b.drop i = c :: rest) : b[i]? = some c := by
  rw [← List.head?_drop, h]
  rfl

theorem readsPair_of_drop {c d : UInt8} (h : b.drop i = c :: d :: rest) (x y : UInt8) :
    readsPair b i x y = some (decide (c = x ∧ d = y)) := by
  rw [readsPair, getElem?_of_drop h, getElem?_of_drop (drop_succ h)]
  by_cases hc : c = x
  · simp [hc, beq_eq_decide]
  · simp [hc]

theorem opensComment_of_drop {c d : UInt8} (h : b.drop i = c :: d :: rest) (y : UInt8) :
    opensComment b i y = some (decide (c = slash ∧ d = y)) := by
  rw [opensComment, if_pos (lt_of_drop (drop_succ h)), readsPair_of_drop h]

/-- A byte that opens no comment. -/
theorem opensComment_eq_false {c : UInt8} {y : UInt8} (h : b.drop i = c :: rest)
    (hno : c = slash → rest.head? ≠ some y) : opensComment b i y = some false := by
  cases rest with
  | nil =>
      have hlast : ¬ i + 1 < b.length := by
        have hlength := congrArg List.length h
        rw [List.length_drop] at hlength
        simp at hlength
        omega
      rw [opensComment, if_neg hlast]
  | cons d rest =>
      rw [opensComment_of_drop h]
      simpa using hno

/-- A block comment is skipped up to its end. -/
theorem skipBlock_closed {interior : Bytes} (h : b.drop i = interior ++ star :: slash :: rest)
    (hno : NoClose interior) (hfuel : interior.length < fuel) :
    skipBlock b fuel i = some (i + interior.length) := by
  induction interior generalizing i fuel with
  | nil =>
      obtain ⟨fuel, rfl⟩ : ∃ n, fuel = n + 1 := ⟨fuel - 1, by omega⟩
      rw [skipBlock, if_pos (lt_of_drop (drop_succ h)), readsPair_of_drop h]
      rfl
  | cons c interior ih =>
      rw [List.length_cons] at hfuel
      obtain ⟨fuel, rfl⟩ : ∃ n, fuel = n + 1 := ⟨fuel - 1, by omega⟩
      have hopen : ∃ d tail, interior ++ star :: slash :: rest = d :: tail ∧
          ¬ (c = star ∧ d = slash) := by
        cases interior with
        | nil => exact ⟨star, slash :: rest, rfl, fun h => absurd h.2 (by decide)⟩
        | cons d interior =>
            refine ⟨d, _, rfl, ?_⟩
            rintro ⟨rfl, rfl⟩
            exact hno ⟨[], interior, rfl⟩
      obtain ⟨d, tail, htail, hclosed⟩ := hopen
      have hhead : b.drop i = c :: d :: tail := by rw [h, List.cons_append, htail]
      rw [skipBlock, if_pos (lt_of_drop (drop_succ hhead)), readsPair_of_drop hhead,
        Option.bind_some, decide_eq_false hclosed]
      have hlength : interior.length < fuel := by omega
      have hskip := ih (drop_succ h)
        (fun hinfix => hno (List.infix_cons_iff.mpr (.inr hinfix))) hlength
      simp only [Bool.false_eq_true, if_false]
      rw [hskip, List.length_cons]
      congr 1
      omega

/-- A block comment without an end is skipped up to the end of the header. -/
theorem skipBlock_open {interior : Bytes} (h : b.drop i = interior) (hno : NoClose interior)
    (hfuel : interior.length < fuel) : ∃ j, skipBlock b fuel i = some j ∧ b.length ≤ j + 1 := by
  induction interior generalizing i fuel with
  | nil =>
      obtain ⟨fuel, rfl⟩ : ∃ n, fuel = n + 1 := ⟨fuel - 1, by omega⟩
      have hend : b.length ≤ i := List.drop_eq_nil_iff.mp h
      exact ⟨i, if_neg (by omega), by omega⟩
  | cons c interior ih =>
      rw [List.length_cons] at hfuel
      obtain ⟨fuel, rfl⟩ : ∃ n, fuel = n + 1 := ⟨fuel - 1, by omega⟩
      cases interior with
      | nil =>
          have hlength := congrArg List.length h
          rw [List.length_drop, List.length_singleton] at hlength
          exact ⟨i, if_neg (by omega), by omega⟩
      | cons d interior =>
          have hclosed : ¬ (c = star ∧ d = slash) := by
            rintro ⟨rfl, rfl⟩
            exact hno ⟨[], interior, rfl⟩
          have hlength : (d :: interior).length < fuel := by omega
          obtain ⟨j, hskip, hj⟩ := ih (drop_succ h)
            (fun hinfix => hno (List.infix_cons_iff.mpr (.inr hinfix))) hlength
          refine ⟨j, ?_, hj⟩
          rw [skipBlock, if_pos (lt_of_drop (drop_succ h)), readsPair_of_drop h, Option.bind_some,
            decide_eq_false hclosed]
          simpa using hskip

/-- A line comment is skipped up to its newline, or to the end of the header. -/
theorem skipLine_drop {interior : Bytes} (h : b.drop i = interior ++ rest)
    (hinterior : newline ∉ interior) (hrest : ∀ c ∈ rest.head?, c = newline)
    (hfuel : interior.length < fuel) : skipLine b fuel i = some (i + interior.length) := by
  induction interior generalizing i fuel with
  | nil =>
      obtain ⟨fuel, rfl⟩ : ∃ n, fuel = n + 1 := ⟨fuel - 1, by omega⟩
      cases rest with
      | nil =>
          have hend : b.length ≤ i := List.drop_eq_nil_iff.mp h
          exact if_neg (by omega)
      | cons c rest =>
          obtain rfl := hrest c rfl
          rw [skipLine, if_pos (lt_of_drop h), getElem?_of_drop h]
          exact if_pos rfl
  | cons c interior ih =>
      rw [List.length_cons] at hfuel
      obtain ⟨fuel, rfl⟩ : ∃ n, fuel = n + 1 := ⟨fuel - 1, by omega⟩
      rw [List.mem_cons, not_or] at hinterior
      have hlength : interior.length < fuel := by omega
      have hskip := ih (drop_succ h) hinterior.2 hlength
      rw [skipLine, if_pos (lt_of_drop h), getElem?_of_drop h]
      simp only
      rw [if_neg (Ne.symm hinterior.1), hskip, List.length_cons]
      congr 1
      omega

/-- The scanner leaves of each piece what is to be left of it. -/
theorem stripLoop_lexed {ps : List Piece} (hps : Lexed ps) {out : List Char}
    (h : b.drop i = textOf ps) (hfuel : (textOf ps).length < fuel) :
    stripLoop b fuel i out = some (out ++ ps.flatMap Piece.stripped) := by
  induction ps generalizing i fuel out with
  | nil =>
      obtain ⟨fuel, rfl⟩ : ∃ n, fuel = n + 1 := ⟨fuel - 1, by omega⟩
      have hend : b.length ≤ i := List.drop_eq_nil_iff.mp h
      rw [stripLoop, if_neg (by omega), List.flatMap_nil, List.append_nil]
  | cons p ps ih =>
      obtain ⟨fuel, rfl⟩ : ∃ n, fuel = n + 1 := ⟨fuel - 1, by omega⟩
      have hgood := hps.good p List.mem_cons_self
      have hfollows := (List.isChain_cons.mp hps.follows).1
      rw [textOf_cons] at h hfuel
      rw [List.flatMap_cons]
      cases p with
      -- the scanner copies it: what follows opens no comment, by the chain of the lexing
      | byte c =>
          have hdrop : b.drop i = c :: textOf ps := h
          have hnone : ∀ y, y = slash ∨ y = star → opensComment b i y = some false := by
            intro y hy
            refine opensComment_eq_false hdrop fun hc hhead => ?_
            rw [head?_textOf] at hhead
            obtain ⟨q, hq, hfirst⟩ := Option.map_eq_some_iff.mp hhead
            obtain ⟨hslash, hstar⟩ := hfollows q hq hc
            rcases hy with rfl | rfl
            · exact hslash hfirst
            · exact hstar hfirst
          rw [stripLoop, if_pos (lt_of_drop hdrop), hnone star (.inr rfl), Option.bind_some,
            hnone slash (.inl rfl), Option.bind_some, getElem?_of_drop hdrop]
          simp only [Bool.false_eq_true, if_false]
          rw [ih hps.tail (drop_succ hdrop) (by simpa [Piece.text] using hfuel), List.append_assoc]
          rfl
      -- the inner loop stops at the first closing pair, and the scanner goes on behind it
      | block interior =>
          have hdrop : b.drop i = slash :: star :: (interior ++ star :: slash :: textOf ps) := by
            simpa [Piece.text] using h
          have hskip : skipBlock b fuel (i + 2) = some (i + 2 + interior.length) := by
            refine skipBlock_closed (drop_succ (drop_succ hdrop)) hgood ?_
            simp [Piece.text] at hfuel
            omega
          have hafter : b.drop (i + 2 + interior.length + 2) = textOf ps :=
            drop_succ (drop_succ (drop_append (drop_succ (drop_succ hdrop))))
          rw [stripLoop, if_pos (lt_of_drop hdrop), opensComment_of_drop hdrop, Option.bind_some,
            if_pos (by decide), hskip, Option.bind_some, ih hps.tail hafter ?_, List.append_assoc]
          · rfl
          · simp [Piece.text] at hfuel
            omega
      | line interior =>
          have hdrop : b.drop i = slash :: slash :: (interior ++ textOf ps) := h
          have hskip : skipLine b fuel (i + 2) = some (i + 2 + interior.length) := by
            refine skipLine_drop (drop_succ (drop_succ hdrop)) hgood ?_ ?_
            · intro c hc
              rw [head?_textOf] at hc
              obtain ⟨q, hq, rfl⟩ := Option.map_eq_some_iff.mp hc
              rw [show q = .byte newline from hfollows q hq]
              rfl
            · simp [Piece.text] at hfuel
              omega
          have hafter : b.drop (i + 2 + interior.length) = textOf ps :=
            drop_append (drop_succ (drop_succ hdrop))
          rw [stripLoop, if_pos (lt_of_drop hdrop), opensComment_of_drop hdrop, Option.bind_some,
            if_neg (by decide), opensComment_of_drop hdrop, Option.bind_some, if_pos (by decide),
            hskip, Option.bind_some, ih hps.tail hafter ?_]
          · rfl
          · simp [Piece.text] at hfuel
            omega
      | openBlock interior =>
          -- nothing may follow, so the header ends here
          have hnil : ps = [] := by
            cases ps with
            | nil => rfl
            | cons q ps => exact (hfollows q rfl).elim
          subst hnil
          have hdrop : b.drop i = slash :: star :: interior := by simpa [Piece.text, textOf] using h
          have hlength : interior.length + 1 < fuel := by
            simp [Piece.text] at hfuel
            omega
          obtain ⟨fuel, rfl⟩ : ∃ n, fuel = n + 1 := ⟨fuel - 1, by omega⟩
          obtain ⟨j, hskip, hj⟩ := skipBlock_open (drop_succ (drop_succ hdrop)) hgood
            (Nat.lt_of_succ_lt hlength)
          rw [stripLoop, if_pos (lt_of_drop hdrop), opensComment_of_drop hdrop, Option.bind_some,
            if_pos (by decide), hskip, Option.bind_some, stripLoop, if_neg (by omega)]
          rfl

end

theorem stripComments_lexed {ps : List Piece} (hps : Lexed ps) :
    stripComments (textOf ps) = some (ps.flatMap Piece.stripped) :=
  stripLoop_lexed hps rfl (Nat.lt_succ_self _)

/-- The scanner comes to its end on every header, and reads nothing outside it. -/
theorem stripLoop_total (src : Bytes) :
    ∃ out, ∀ fuel, src.length < fuel → stripLoop src fuel 0 [] = some out := by
  obtain ⟨ps, hps, rfl⟩ := exists_lexed src
  exact ⟨ps.flatMap Piece.stripped, fun fuel hfuel => stripLoop_lexed hps rfl hfuel⟩

end LlingrKafka.Abi
