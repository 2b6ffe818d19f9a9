import LlingrKafka.Abi.Comments
import Mathlib.Logic.Relation

/-!
# Edits of comments and white space

One edit of a header gives a comment another interior, makes a gap wider or narrower, or puts a
block comment next to white space.  No number of them changes the signature
(`edits_invisible`): the scanner leaves a blank of a block comment and nothing of a line
comment, and how many blanks stand in a gap does not matter.

One place is to be avoided: behind a slash of the code the opener of a block comment is read as
the opener of a line comment, which hides the rest of the line (`insertion_behind_slash`).
-/

namespace LlingrKafka.Abi

open Utf8

/-- White space of C. -/
def isWhite (b : UInt8) : Bool := b == 32 || (9 ≤ b && b ≤ 13)

/-- The same kind of comment with another interior. -/
inductive OtherInterior : Piece → Piece → Prop
  | block (interior interior' : Bytes) : OtherInterior (.block interior) (.block interior')
  | line (interior interior' : Bytes) : OtherInterior (.line interior) (.line interior')
  | openBlock (interior interior' : Bytes) :
      OtherInterior (.openBlock interior) (.openBlock interior')

/-- One edit; `allowed` says of a piece that a block comment may be put behind it when white
space follows.  The newline that ends a line comment stays its end. -/
inductive Edit (allowed : Piece → Prop) : List Piece → List Piece → Prop
  | interior (before after : List Piece) {p p' : Piece} (h : OtherInterior p p') (hgood : p'.Good) :
      Edit allowed (before ++ p :: after) (before ++ p' :: after)
  | space (before after : List Piece) {gap gap' : Bytes} (hne : gap ≠ []) (hne' : gap' ≠ [])
      (hgap : ∀ b ∈ gap, isWhite b = true) (hgap' : ∀ b ∈ gap', isWhite b = true)
      (hline : ∀ interior, before.getLast? = some (.line interior) → gap'.head? = some newline) :
      Edit allowed (before ++ gap.map .byte ++ after) (before ++ gap'.map .byte ++ after)
  | insertBefore (before after : List Piece) {w : UInt8} {interior : Bytes}
      (hw : isWhite w = true) (hclosed : NoClose interior)
      (hallowed : ∀ p ∈ before.getLast?, allowed p) :
      Edit allowed (before ++ .byte w :: after) (before ++ .block interior :: .byte w :: after)
  | insertAfter (before after : List Piece) {w : UInt8} {interior : Bytes}
      (hw : isWhite w = true) (hclosed : NoClose interior) :
      Edit allowed (before ++ .byte w :: after) (before ++ .byte w :: .block interior :: after)

/-- The place behind the piece is in no comment. -/
def OutsideComments (p : Piece) : Prop := ∀ interior, p ≠ .line interior

/-- The place behind the piece is in no comment and not behind a slash. -/
def NotBehindSlash (p : Piece) : Prop := OutsideComments p ∧ p ≠ .byte slash

/-- An edit of a header is not seen in its signature. -/
def EditsInvisible (allowed : Piece → Prop) : Prop :=
  ∀ ps ps', Lexed ps → Edit allowed ps ps' →
    abiSignature (textOf ps) = abiSignature (textOf ps')

/-! ## What the scanner leaves -/

theorem isSpace_of_isWhite {b : UInt8} (h : isWhite b = true) :
    Text.isSpace (Char.ofNat b.toNat) = true := by
  have hall : ∀ n : Fin 256, isWhite (UInt8.ofNat n) = true →
      Text.isSpace (Char.ofNat (UInt8.ofNat n).toNat) = true := by decide +kernel
  have hb := hall ⟨b.toNat, b.toNat_lt⟩
  rw [UInt8.ofNat_toNat] at hb
  exact hb h

theorem not_opener_of_isWhite {b : UInt8} (h : isWhite b = true) : b ≠ slash ∧ b ≠ star := by
  refine ⟨?_, ?_⟩ <;> rintro rfl <;> exact absurd h (by decide)

theorem isSpace_stripped_gap {gap : Bytes} (hgap : ∀ b ∈ gap, isWhite b = true) :
    ∀ c ∈ gap.map fun b => Char.ofNat b.toNat, Text.isSpace c = true := by
  intro c hc
  obtain ⟨b, hb, rfl⟩ := List.mem_map.mp hc
  exact isSpace_of_isWhite (hgap b hb)

/-- A blank next to white space is not seen. -/
theorem signatureOf_insert {w : UInt8} (hw : isWhite w = true) (left right : List Char)
    (hblank : ∀ c ∈ left ++ right, c = ' ') (before after : List Char) :
    signatureOf (before ++ [Char.ofNat w.toNat] ++ after) =
      signatureOf (before ++ (left ++ Char.ofNat w.toNat :: right) ++ after) := by
  have hspace := isSpace_of_isWhite hw
  have hleft : ∀ c ∈ left ++ Char.ofNat w.toNat :: right, Text.isSpace c = true := by
    intro c hc
    rw [List.mem_append, List.mem_cons] at hc
    rcases hc with hc | rfl | hc
    · rw [hblank c (List.mem_append_left _ hc)]
      decide
    · exact hspace
    · rw [hblank c (List.mem_append_right _ hc)]
      decide
  exact signatureOf_gap (by simp) (by simp) (by simpa using hspace) hleft before after

/-- The signature of what is left is the same after an edit. -/
theorem Edit.signatureOf_eq {allowed : Piece → Prop} {ps ps' : List Piece}
    (h : Edit allowed ps ps') :
    signatureOf (ps.flatMap Piece.stripped) = signatureOf (ps'.flatMap Piece.stripped) := by
  cases h with
  | interior before after h hgood =>
      have hsame : ∀ {p p' : Piece}, OtherInterior p p' → p.stripped = p'.stripped := by
        intro p p' h
        cases h <;> rfl
      rw [List.flatMap_append, List.flatMap_cons, hsame h, ← List.flatMap_cons,
        ← List.flatMap_append]
  | space before after hne hne' hgap hgap' hline =>
      simp only [List.flatMap_append, stripped_bytes]
      exact signatureOf_gap (by simpa using hne) (by simpa using hne') (isSpace_stripped_gap hgap)
        (isSpace_stripped_gap hgap') _ _
  | @insertBefore before after w interior hw hclosed hallowed =>
      have hgap := signatureOf_insert hw [' '] [] (by simp) (before.flatMap Piece.stripped)
        (after.flatMap Piece.stripped)
      simpa [List.flatMap_append, Piece.stripped] using hgap
  | @insertAfter before after w interior hw hclosed =>
      have hgap := signatureOf_insert hw [] [' '] (by simp) (before.flatMap Piece.stripped)
        (after.flatMap Piece.stripped)
      simpa [List.flatMap_append, Piece.stripped] using hgap

/-! ## What the pieces are after an edit -/

/-- Pieces in the place of others. -/
theorem Lexed.replace {before mid mid' after : List Piece} (h : Lexed (before ++ (mid ++ after)))
    (hmid' : Lexed mid') (hne' : mid' ≠ [])
    (hleft : ∀ p ∈ before.getLast?, ∀ q ∈ mid'.head?, Follows p q)
    (hright : ∀ p ∈ mid'.getLast?, ∀ q ∈ after.head?, Follows p q) :
    Lexed (before ++ (mid' ++ after)) := by
  obtain ⟨hbefore, hrest, -⟩ := List.isChain_append.mp h.follows
  obtain ⟨-, hafter, -⟩ := List.isChain_append.mp hrest
  refine ⟨fun p hp => ?_, ?_⟩
  · rcases List.mem_append.mp hp with hp | hp
    · exact h.good p (List.mem_append_left _ hp)
    · rcases List.mem_append.mp hp with hp | hp
      · exact hmid'.good p hp
      · exact h.good p (List.mem_append_right _ (List.mem_append_right _ hp))
  · refine List.isChain_append.mpr ⟨hbefore, hmid'.follows.append hafter hright, ?_⟩
    rwa [List.head?_append_of_ne_nil _ hne']

theorem Lexed.follows_head {before mid after : List Piece} {q : Piece}
    (h : Lexed (before ++ (q :: mid ++ after))) : ∀ p ∈ before.getLast?, Follows p q :=
  fun p hp => (List.isChain_append.mp h.follows).2.2 p hp q rfl

theorem Lexed.follows_last {before after : List Piece} {p : Piece}
    (h : Lexed (before ++ ([p] ++ after))) : ∀ q ∈ after.head?, Follows p q :=
  fun q hq => (List.isChain_append.mp (List.isChain_append.mp h.follows).2.1).2.2 p rfl q hq

/-- White space opens no comment, whatever comes after it. -/
theorem follows_white {w : UInt8} (hw : isWhite w = true) (q : Piece) : Follows (.byte w) q :=
  fun hslash => absurd hslash (not_opener_of_isWhite hw).1

/-- White space may come behind anything that does not end the header or its line. -/
theorem white_follows {p q : Piece} {w : UInt8} (hw : isWhite w = true) (h : Follows p q)
    (hline : ∀ interior, p = .line interior → w = newline) : Follows p (.byte w) := by
  cases p with
  | byte b => exact fun _ => not_opener_of_isWhite hw
  | block interior => trivial
  | line interior => exact congrArg Piece.byte (hline interior rfl)
  | openBlock interior => exact h.elim

theorem OtherInterior.follows {p p' : Piece} (h : OtherInterior p p') (q : Piece) :
    (Follows q p → Follows q p') ∧ (Follows p q → Follows p' q) := by
  refine ⟨fun hfollows => ?_, fun hfollows => ?_⟩
  · cases q with
    | byte b => cases h <;> exact hfollows
    | block interior => trivial
    | line interior => cases h <;> cases hfollows
    | openBlock interior => exact hfollows.elim
  · cases h <;> exact hfollows

theorem lexed_white {gap : Bytes} (hgap : ∀ b ∈ gap, isWhite b = true) :
    Lexed (gap.map .byte) := by
  induction gap with
  | nil => exact ⟨by simp, List.isChain_nil⟩
  | cons b gap ih =>
      rw [List.forall_mem_cons] at hgap
      exact (ih hgap.2).cons trivial fun q _ => follows_white hgap.1 q

/-- A header is read as its edited pieces. -/
theorem Edit.lexed {ps ps' : List Piece} (h : Edit NotBehindSlash ps ps') (hps : Lexed ps) :
    Lexed ps' := by
  cases h with
  | @interior before after p p' hother hgood =>
      -- the new comment begins and ends as the old one
      have hps : Lexed (before ++ ([p] ++ after)) := hps
      have hsingle : Lexed [p'] := ⟨by simpa using hgood, List.isChain_singleton _⟩
      refine hps.replace hsingle (List.cons_ne_nil _ _) ?_ ?_
      · rintro q hq r hr
        obtain rfl := Option.some_inj.mp hr
        exact (hother.follows q).1 (hps.follows_head q hq)
      · rintro q hq r hr
        obtain rfl := Option.some_inj.mp hq
        exact (hother.follows r).2 (hps.follows_last r hr)
  | @space before after gap gap' hne hne' hgap hgap' hline =>
      -- white space opens no comment, and behind a line comment it still begins with the newline
      rw [List.append_assoc] at hps ⊢
      refine hps.replace (lexed_white hgap') (by simpa using hne') ?_ ?_
      · obtain ⟨b, gap, rfl⟩ := List.exists_cons_of_ne_nil hne
        obtain ⟨b', gap', rfl⟩ := List.exists_cons_of_ne_nil hne'
        rintro q hq r hr
        obtain rfl := Option.some_inj.mp hr
        refine white_follows (hgap' b' List.mem_cons_self) (hps.follows_head q hq) ?_
        rintro interior rfl
        exact Option.some_inj.mp (hline interior hq)
      · intro q hq r hr
        rw [List.getLast?_map] at hq
        obtain ⟨b, hb, rfl⟩ := Option.map_eq_some_iff.mp hq
        exact follows_white (hgap' b (List.mem_of_getLast? hb)) r
  | @insertBefore before after w interior hw hclosed hallowed =>
      -- a slash in front would open a line comment with the new one
      have hps : Lexed (before ++ ([.byte w] ++ after)) := hps
      have hpair : Lexed [.block interior, .byte w] :=
        ⟨by simpa [Piece.Good] using hclosed, List.isChain_pair.mpr trivial⟩
      refine hps.replace hpair (List.cons_ne_nil _ _) ?_ ?_
      · rintro q hq r hr
        obtain rfl := Option.some_inj.mp hr
        obtain ⟨houtside, hslash⟩ := hallowed q hq
        cases q with
        | byte b => exact fun hb => absurd (congrArg Piece.byte hb) hslash
        | block _ => trivial
        | line interior => exact absurd rfl (houtside interior)
        | openBlock _ => exact (hps.follows_head _ hq).elim
      · rintro q hq r -
        obtain rfl := Option.some_inj.mp hq
        exact follows_white hw r
  | @insertAfter before after w interior hw hclosed =>
      have hps : Lexed (before ++ ([.byte w] ++ after)) := hps
      have hpair : Lexed [.byte w, .block interior] :=
        ⟨by simpa [Piece.Good] using hclosed, List.isChain_pair.mpr (follows_white hw _)⟩
      refine hps.replace hpair (List.cons_ne_nil _ _) ?_ ?_
      · rintro q hq r hr
        obtain rfl := Option.some_inj.mp hr
        exact hps.follows_head q hq
      · rintro q hq r -
        obtain rfl := Option.some_inj.mp hq
        trivial

/-! ## The edits -/

/-- An edit keeps the signature. -/
theorem Edit.abiSignature_eq {ps ps' : List Piece} (h : Edit NotBehindSlash ps ps')
    (hps : Lexed ps) : abiSignature (textOf ps) = abiSignature (textOf ps') := by
  rw [abiSignature, stripComments_lexed hps, abiSignature, stripComments_lexed (h.lexed hps),
    Option.map_some, Option.map_some, h.signatureOf_eq]

/-- Edits of comments and gaps do not change the signature, if no block comment is put behind a
slash of the code.  Every header is read as some pieces, so this is about every header; and the
scanner, with fuel for one step a byte, comes to an end on each, inside its bounds. -/
theorem edits_invisible :
    (∀ ps ps', Lexed ps → Relation.ReflTransGen (Edit NotBehindSlash) ps ps' →
      abiSignature (textOf ps) = abiSignature (textOf ps')) ∧
    (∀ src, ∃ ps, Lexed ps ∧ textOf ps = src) ∧
    ∀ src : Bytes, ∃ out, ∀ fuel, src.length < fuel → stripLoop src fuel 0 [] = some out := by
  refine ⟨?_, exists_lexed, stripLoop_total⟩
  intro ps ps' hps hedits
  have hboth : Lexed ps' ∧ abiSignature (textOf ps) = abiSignature (textOf ps') := by
    induction hedits with
    | refl => exact ⟨hps, rfl⟩
    | tail _ hedit ih => exact ⟨hedit.lexed ih.1, ih.2.trans (hedit.abiSignature_eq ih.1)⟩
  exact hboth.2

/-- `int llingr_v[8/ 2];` -/
def quotient : List Piece := (encode "int llingr_v[8/ 2];").map .byte

theorem lexed_quotient : Lexed quotient where
  good := by simp [quotient, Piece.Good]
  follows := by decide +kernel

/-- The quotient with a comment, full of what is no end of it, behind the blank. -/
theorem edits_invisible_quotient :
    abiSignature (textOf quotient) = abiSignature (textOf (quotient.take 15 ++ .byte 32 ::
      .block (encode "; llingr_x // /* é **") :: quotient.drop 16)) := by
  refine edits_invisible.1 quotient _ lexed_quotient
    (.single (.insertAfter (quotient.take 15) (quotient.drop 16) ?_ ?_))
  · decide
  · rw [NoClose]
    decide +kernel

/-- The quotient with a comment behind the slash: the rest of the line is gone. -/
theorem insertion_behind_slash : ¬ EditsInvisible OutsideComments := by
  intro hinvisible
  have hlast : (quotient.take 15).getLast? = some (.byte slash) := by decide +kernel
  have hsame := hinvisible quotient
    (quotient.take 15 ++ .block (encode "c") :: .byte 32 :: quotient.drop 16) lexed_quotient
    (.insertBefore (quotient.take 15) (quotient.drop 16) (by decide)
      (by rw [NoClose]; decide +kernel) ?_)
  · revert hsame
    decide +kernel
  · rintro p hp interior rfl
    rw [hlast] at hp
    cases hp

end LlingrKafka.Abi
