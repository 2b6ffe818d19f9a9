import Mathlib.Data.List.Basic
import Mathlib.Tactic.Common

/-!
# Words and fragments

Splitting a text into its words, over any kind of character and any notion of white space.
How much white space stands between two words does not matter (`words_gap`); nor does it where a
text is split at a separator first (`exists_splitOn_gap`).  Fragments that are joined can be told
apart again (`intercalate_injective`).
-/

namespace Words

section

variable {α : Type*} {p : α → Bool}

/-- The words of a text: what is between white space, without the empty pieces. -/
def words (p : α → Bool) (cs : List α) : List (List α) :=
  (cs.splitOnP p).filter fun w => !w.isEmpty

@[simp] theorem words_nil : words p [] = [] := rfl

theorem words_append_cons {s : α} (hs : p s = true) (before after : List α) :
    words p (before ++ s :: after) = words p before ++ words p after := by
  rw [words, List.splitOnP_append_cons before after hs, List.filter_append]
  rfl

theorem words_cons {s : α} (hs : p s = true) (cs : List α) : words p (s :: cs) = words p cs :=
  words_append_cons hs [] cs

/-- Words are made of the characters of the text. -/
theorem mem_of_mem_words {cs w : List α} (hw : w ∈ words p cs) {c : α} (hc : c ∈ w) : c ∈ cs := by
  have hpiece : ∀ w ∈ cs.splitOnP p, ∀ c ∈ w, c ∈ cs := by
    clear hw hc
    induction cs with
    | nil => simp
    | cons d cs ih =>
        rw [List.splitOnP_cons_eq_if_modifyHead]
        split
        · rw [List.forall_mem_cons]
          exact ⟨by simp, fun w hw c hc => List.mem_cons_of_mem d (ih w hw c hc)⟩
        · obtain ⟨first, rest, hsplit⟩ := List.exists_cons_of_ne_nil (List.splitOnP_ne_nil p cs)
          rw [hsplit, List.forall_mem_cons] at ih
          rw [hsplit, List.modifyHead_cons, List.forall_mem_cons]
          refine ⟨fun c hc => ?_, fun w hw c hc => List.mem_cons_of_mem d (ih.2 w hw c hc)⟩
          rcases List.mem_cons.mp hc with rfl | hc
          · exact List.mem_cons_self
          · exact List.mem_cons_of_mem d (ih.1 c hc)
  exact hpiece w (List.mem_filter.mp hw).1 c hc

/-- White space at the start is skipped. -/
theorem words_append {gap : List α} (hgap : ∀ c ∈ gap, p c = true) (cs : List α) :
    words p (gap ++ cs) = words p cs := by
  induction gap with
  | nil => rfl
  | cons c gap ih =>
      rw [List.forall_mem_cons] at hgap
      rw [List.cons_append, words_cons hgap.1, ih hgap.2]

/-- A gap keeps the two sides apart, however long it is. -/
theorem words_gap {gap : List α} (hne : gap ≠ []) (hgap : ∀ c ∈ gap, p c = true)
    (before after : List α) :
    words p (before ++ gap ++ after) = words p before ++ words p after := by
  cases gap with
  | nil => exact absurd rfl hne
  | cons c gap =>
      rw [List.forall_mem_cons] at hgap
      rw [List.append_assoc, List.cons_append, words_append_cons hgap.1, words_append hgap.2]

end

section

variable {α : Type*} [DecidableEq α] {sep : α}

/-- The fragments of a text after a fixed beginning. -/
theorem exists_splitOn_append (before : List α) :
    ∃ init last, ∀ after : List α, (before ++ after).splitOn sep =
      init ++ (after.splitOn sep).modifyHead (last ++ ·) := by
  induction before with
  | nil => exact ⟨[], [], fun after => (congrFun List.modifyHead_id (after.splitOn sep)).symm⟩
  | cons c before ih =>
      obtain ⟨init, last, happend⟩ := ih
      by_cases hc : c = sep
      · refine ⟨[] :: init, last, fun after => ?_⟩
        rw [List.cons_append, List.splitOn_cons_eq_if_modifyHead, if_pos (by simpa using hc),
          happend, List.cons_append]
      · cases init with
        | nil =>
            refine ⟨[], c :: last, fun after => ?_⟩
            rw [List.cons_append, List.splitOn_cons_eq_if_modifyHead, if_neg (by simpa using hc),
              happend, List.nil_append, List.nil_append, List.modifyHead_modifyHead]
            rfl
        | cons x init =>
            refine ⟨(c :: x) :: init, last, fun after => ?_⟩
            rw [List.cons_append, List.splitOn_cons_eq_if_modifyHead, if_neg (by simpa using hc),
              happend]
            rfl

/-- A piece without the separator changes one fragment. -/
theorem exists_splitOn_gap (before after : List α) :
    ∃ init last first rest, ∀ gap : List α, sep ∉ gap →
      (before ++ gap ++ after).splitOn sep = init ++ (last ++ gap ++ first) :: rest := by
  obtain ⟨init, last, hbefore⟩ := @exists_splitOn_append _ _ sep before
  obtain ⟨first, rest, hafter⟩ := List.exists_cons_of_ne_nil (List.splitOn_ne_nil sep after)
  refine ⟨init, last, first, rest, fun gap hgap => ?_⟩
  have hsplit : (gap ++ after).splitOn sep = (gap ++ first) :: rest := by
    induction gap with
    | nil => exact hafter
    | cons c gap ih =>
        rw [List.mem_cons, not_or] at hgap
        rw [List.cons_append, List.splitOn_cons_eq_if_modifyHead,
          if_neg (by simpa using Ne.symm hgap.1), ih hgap.2]
        rfl
  rw [List.append_assoc, hbefore, hsplit, List.modifyHead_cons, List.append_assoc]

end

section

variable {α : Type*}

/-- Where the characters of joined pieces come from. -/
theorem mem_intercalate {glue : List α} {ls : List (List α)} {c : α}
    (h : c ∈ glue.intercalate ls) : c ∈ glue ∨ ∃ l ∈ ls, c ∈ l := by
  induction ls with
  | nil => cases h
  | cons l ls ih =>
      cases ls with
      | nil =>
          rw [List.intercalate_singleton] at h
          exact .inr ⟨l, List.mem_cons_self, h⟩
      | cons m ls =>
          rw [List.intercalate_cons_cons, List.mem_append, List.mem_append] at h
          rcases h with (h | h) | h
          · exact .inr ⟨l, List.mem_cons_self, h⟩
          · exact .inl h
          · rcases ih h with h | ⟨l', hl', h⟩
            · exact .inl h
            · exact .inr ⟨l', List.mem_cons_of_mem l hl', h⟩

/-- The first separator of a text is in one place. -/
theorem append_cons_inj {sep : α} {before before' after after' : List α} (h : sep ∉ before)
    (h' : sep ∉ before') (heq : before ++ sep :: after = before' ++ sep :: after') :
    before = before' ∧ after = after' := by
  induction before generalizing before' with
  | nil =>
      cases before' with
      | nil => exact ⟨rfl, (List.cons.inj heq).2⟩
      | cons c before' => exact absurd (List.mem_cons.mpr (.inl (List.cons.inj heq).1)) h'
  | cons c before ih =>
      cases before' with
      | nil => exact absurd (List.mem_cons.mpr (.inl (List.cons.inj heq).1.symm)) h
      | cons d before' =>
          rw [List.mem_cons, not_or] at h h'
          obtain ⟨rfl, hrest⟩ := List.cons.inj heq
          obtain ⟨rfl, hafter⟩ := ih h.2 h'.2 hrest
          exact ⟨rfl, hafter⟩

/-- Two lists that are filtered alike, but for heads which are in the list they stand before only:
the heads are the same if one is kept. -/
theorem filter_cons_eq_iff {p : α → Bool} {x x' : α} {xs xs' : List α} (h : x ∉ xs')
    (h' : x' ∉ xs) : (x :: xs).filter p = (x' :: xs').filter p ↔
      (p x = true ∨ p x' = true → x = x') ∧ xs.filter p = xs'.filter p := by
  have hmem : ∀ {x : α} {xs : List α}, x ∉ xs → x ∉ xs.filter p :=
    fun hx hfilter => hx (List.mem_filter.mp hfilter).1
  have hhead : ∀ {x : α} {xs ys : List α}, x ∉ xs → x :: ys ≠ xs.filter p := by
    intro x xs ys hx heq
    exact hmem hx (heq ▸ List.mem_cons_self)
  by_cases hx : p x = true
  · rw [List.filter_cons_of_pos hx]
    by_cases hx' : p x' = true
    · rw [List.filter_cons_of_pos hx', List.cons.injEq]
      exact ⟨fun heq => ⟨fun _ => heq.1, heq.2⟩, fun heq => ⟨heq.1 (.inl hx), heq.2⟩⟩
    · rw [List.filter_cons_of_neg hx']
      exact ⟨fun heq => absurd heq (hhead h), fun heq => absurd (heq.1 (.inl hx) ▸ hx) hx'⟩
  · rw [List.filter_cons_of_neg hx]
    by_cases hx' : p x' = true
    · rw [List.filter_cons_of_pos hx']
      exact ⟨fun heq => absurd heq.symm (hhead h'), fun heq => absurd (heq.1 (.inr hx') ▸ hx') hx⟩
    · rw [List.filter_cons_of_neg hx']
      exact ⟨fun heq => ⟨fun hor => absurd hor (not_or.mpr ⟨hx, hx'⟩), heq⟩, fun heq => heq.2⟩

/-- Fragments joined by a separator and more are the fragments of one list only. -/
theorem intercalate_injective {sep : α} {glue : List α} {ls ls' : List (List α)}
    (h : ∀ l ∈ ls, l ≠ [] ∧ sep ∉ l) (h' : ∀ l ∈ ls', l ≠ [] ∧ sep ∉ l)
    (heq : (sep :: glue).intercalate ls = (sep :: glue).intercalate ls') : ls = ls' := by
  -- a text that is one fragment has no separator in it, and one that is two or more has
  have hone : ∀ {l m m' : List α} {ms : List (List α)}, sep ∉ l →
      l ≠ (sep :: glue).intercalate (m :: m' :: ms) := by
    rintro l m m' ms hl rfl
    refine hl ?_
    rw [List.intercalate_cons_cons]
    simp
  induction ls generalizing ls' with
  | nil =>
      cases ls' with
      | nil => rfl
      | cons l' ls' =>
          cases ls' with
          | nil => exact absurd heq.symm (by simpa using (h' l' (by simp)).1)
          | cons m' ls' => exact absurd heq (hone List.not_mem_nil)
  | cons l ls ih =>
      rw [List.forall_mem_cons] at h
      cases ls with
      | nil =>
          rw [List.intercalate_singleton] at heq
          cases ls' with
          | nil => exact absurd heq h.1.1
          | cons l' ls' =>
              cases ls' with
              | nil => rw [heq, List.intercalate_singleton]
              | cons m' ls' => exact absurd heq (hone h.1.2)
      | cons m ls =>
          cases ls' with
          | nil => exact absurd heq.symm (hone List.not_mem_nil)
          | cons l' ls' =>
              rw [List.forall_mem_cons] at h'
              cases ls' with
              | nil =>
                  rw [List.intercalate_singleton] at heq
                  exact absurd heq.symm (hone h'.1.2)
              | cons m' ls' =>
                  rw [List.intercalate_cons_cons, List.intercalate_cons_cons, List.append_assoc,
                    List.append_assoc, List.cons_append, List.cons_append] at heq
                  obtain ⟨rfl, hrest⟩ := append_cons_inj h.1.2 h'.1.2 heq
                  rw [ih h.2 h'.2 (List.append_cancel_left hrest)]

end

end Words
