import LlingrKafka.Foundations.Text

/-!
# Trimming and splitting

Trimming a text before it is cut or split changes nothing about the trimmed pieces
(`cut_trim`, `map_trim_splitOn_trim`), and joined texts are split into the pieces of each
(`splitOn_intercalate_flatMap`).
-/

namespace Text

theorem trim_cons {c : Char} (hc : isSpace c = true) (cs : List Char) :
    trim (c :: cs) = trim cs := by
  rw [trim, List.dropWhile_cons_of_pos hc, trim]

theorem trim_concat {c : Char} (hc : isSpace c = true) (cs : List Char) :
    trim (cs ++ [c]) = trim cs := by
  rw [trim, List.dropWhile_append]
  split_ifs with hall
  · rw [List.isEmpty_iff] at hall
    rw [trim, hall, List.dropWhile_cons_of_pos hc, List.dropWhile_nil]
  · rw [List.rdropWhile_concat_pos _ _ _ hc, trim]

theorem trim_subset {cs : List Char} {c : Char} (h : c ∈ trim cs) : c ∈ cs :=
  (List.dropWhile_suffix _).subset ((List.rdropWhile_prefix _ _).subset h)

theorem trim_trim (cs : List Char) : trim (trim cs) = trim cs := by
  have hhead : (trim cs).dropWhile isSpace = trim cs := by
    rw [List.dropWhile_eq_self_iff]
    intro hlen hspace
    obtain ⟨rest, hrest⟩ := List.rdropWhile_prefix isSpace (cs.dropWhile isSpace)
    have hprefix : trim cs ++ rest = cs.dropWhile isSpace := hrest
    have hdropped : 0 < (cs.dropWhile isSpace).length := by
      rw [← hprefix, List.length_append]
      omega
    -- the first character that is left is the first one behind the white space
    have hfirst : (cs.dropWhile isSpace)[0] = (trim cs)[0] := by
      simp only [← hprefix]
      exact List.getElem_append_left hlen
    refine List.dropWhile_get_zero_not isSpace cs hdropped ?_
    rw [List.get_eq_getElem, hfirst]
    exact hspace
  rw [trim, hhead, trim, List.rdropWhile_idempotent]

theorem trim_dropWhile (cs : List Char) : trim (cs.dropWhile isSpace) = trim cs := by
  rw [trim, List.dropWhile_idempotent, trim]

theorem trim_rdropWhile (cs : List Char) : trim (cs.rdropWhile isSpace) = trim cs := by
  induction cs using List.reverseRecOn with
  | nil => rfl
  | append_singleton cs c ih =>
      by_cases hc : isSpace c = true
      · rw [List.rdropWhile_concat_pos _ _ _ hc, ih, trim_concat hc]
      · rw [List.rdropWhile_concat_neg _ _ _ hc]

section

variable {sep : Char}

/-- A separator keeps the two sides apart. -/
theorem trim_append_cons (hsep : isSpace sep = false) (before after : List Char) :
    trim (before ++ sep :: after) =
      before.dropWhile isSpace ++ sep :: after.rdropWhile isSpace := by
  have hright : ∀ l : List Char, (l ++ sep :: after).rdropWhile isSpace =
      l ++ sep :: after.rdropWhile isSpace := by
    intro l
    induction after using List.reverseRecOn with
    | nil => rw [List.rdropWhile_concat_neg _ _ _ (by simp [hsep]), List.rdropWhile_nil]
    | append_singleton after c ih =>
        rw [← List.cons_append, ← List.append_assoc]
        by_cases hc : isSpace c = true
        · rw [List.rdropWhile_concat_pos _ _ _ hc, List.rdropWhile_concat_pos _ _ _ hc, ih]
        · rw [List.rdropWhile_concat_neg _ _ _ hc, List.rdropWhile_concat_neg _ _ _ hc,
            List.append_assoc, List.cons_append]
  have hleft : (before ++ sep :: after).dropWhile isSpace =
      before.dropWhile isSpace ++ sep :: after := by
    induction before with
    | nil => rw [List.nil_append, List.dropWhile_cons_of_neg (by simp [hsep]), List.dropWhile_nil,
        List.nil_append]
    | cons c before ih =>
        by_cases hc : isSpace c = true
        · rw [List.cons_append, List.dropWhile_cons_of_pos hc, List.dropWhile_cons_of_pos hc, ih]
        · rw [List.cons_append, List.dropWhile_cons_of_neg hc, List.dropWhile_cons_of_neg hc,
            List.cons_append]
  rw [trim, hleft, hright]

/-! ## Cutting -/

theorem cut_append {before after : List Char} (h : sep ∉ before) :
    cut sep (before ++ sep :: after) = some (before, after) := by
  have hall : ∀ c ∈ before, (c != sep) = true := by
    intro c hc
    rw [bne_iff_ne]
    rintro rfl
    exact h hc
  rw [cut, List.dropWhile_append_of_pos hall, List.takeWhile_append_of_pos hall,
    List.dropWhile_cons_of_neg (by simp), List.takeWhile_cons_of_neg (by simp), List.append_nil]

theorem cut_eq_some {cs before after : List Char}
    (h : cut sep cs = some (before, after)) : cs = before ++ sep :: after ∧ sep ∉ before := by
  unfold cut at h
  split at h
  · cases h
  · rename_i c rest hrest
    obtain ⟨rfl, rfl⟩ := Prod.mk.inj (Option.some_inj.mp h)
    have hsplit := List.takeWhile_append_dropWhile (p := (· != sep)) (l := cs)
    have hc : c = sep := by
      have hhead := List.head?_dropWhile_not (· != sep) cs
      rw [hrest] at hhead
      simpa using hhead
    rw [hrest, hc] at hsplit
    refine ⟨hsplit.symm, fun hmem => ?_⟩
    simpa using List.mem_takeWhile_imp hmem

theorem cut_eq_none {cs : List Char} (h : sep ∉ cs) : cut sep cs = none := by
  cases hcut : cut sep cs with
  | none => rfl
  | some halves =>
      rw [(cut_eq_some hcut).1] at h
      exact absurd (List.mem_append_right _ List.mem_cons_self) h

/-- The halves of a trimmed text are those of the text, trimmed on their outer sides. -/
theorem cut_trim (hsep : isSpace sep = false) (cs : List Char) :
    cut sep (trim cs) =
      (cut sep cs).map fun halves =>
        (halves.1.dropWhile isSpace, halves.2.rdropWhile isSpace) := by
  cases hcut : cut sep cs with
  | none =>
      refine cut_eq_none fun hmem => ?_
      obtain ⟨before, after, rfl, hbefore⟩ := List.eq_append_cons_of_mem (trim_subset hmem)
      rw [cut_append hbefore] at hcut
      cases hcut
  | some halves =>
      obtain ⟨rfl, hbefore⟩ := cut_eq_some hcut
      have hdrop : sep ∉ halves.1.dropWhile isSpace :=
        fun hmem => hbefore ((List.dropWhile_suffix _).subset hmem)
      rw [trim_append_cons hsep, cut_append hdrop]
      rfl

/-! ## Splitting -/

/-- Splitting a text with one more character at its end. -/
theorem splitOn_concat {c : Char} (hc : c ≠ sep) (cs : List Char) :
    ∃ init last, cs.splitOn sep = init ++ [last] ∧
      (cs ++ [c]).splitOn sep = init ++ [last ++ [c]] := by
  induction cs with
  | nil =>
      refine ⟨[], [], rfl, ?_⟩
      exact List.splitOn_eq_singleton (by simpa using hc.symm)
  | cons d cs ih =>
      obtain ⟨init, last, hcs, hconcat⟩ := ih
      rw [List.cons_append, List.splitOn_cons_eq_if_modifyHead, List.splitOn_cons_eq_if_modifyHead,
        hcs, hconcat]
      split_ifs
      · exact ⟨[] :: init, last, rfl, rfl⟩
      · cases init with
        | nil => exact ⟨[], d :: last, rfl, rfl⟩
        | cons x init => exact ⟨(d :: x) :: init, last, rfl, rfl⟩

/-- Trimmed, the pieces are those of the trimmed text. -/
theorem map_trim_splitOn_trim (hsep : isSpace sep = false) (cs : List Char) :
    ((trim cs).splitOn sep).map trim = (cs.splitOn sep).map trim := by
  have hne : ∀ {c}, isSpace c = true → c ≠ sep := by
    rintro c hc rfl
    rw [hsep] at hc
    cases hc
  have hleft : ∀ cs : List Char, ((cs.dropWhile isSpace).splitOn sep).map trim =
      (cs.splitOn sep).map trim := by
    intro cs
    induction cs with
    | nil => rfl
    | cons c cs ih =>
        by_cases hc : isSpace c = true
        · rw [List.dropWhile_cons_of_pos hc, ih, List.splitOn_cons_eq_if_modifyHead,
            if_neg (by simpa using hne hc)]
          cases cs.splitOn sep with
          | nil => rfl
          | cons x xs => rw [List.modifyHead_cons, List.map_cons, List.map_cons, trim_cons hc]
        · rw [List.dropWhile_cons_of_neg hc]
  have hright : ∀ cs : List Char, ((cs.rdropWhile isSpace).splitOn sep).map trim =
      (cs.splitOn sep).map trim := by
    intro cs
    induction cs using List.reverseRecOn with
    | nil => rfl
    | append_singleton cs c ih =>
        by_cases hc : isSpace c = true
        · obtain ⟨init, last, hcs, hconcat⟩ := splitOn_concat (hne hc) cs
          rw [List.rdropWhile_concat_pos _ _ _ hc, ih, hcs, hconcat, List.map_append,
            List.map_append, List.map_singleton, List.map_singleton, trim_concat hc]
        · rw [List.rdropWhile_concat_neg _ _ _ hc]
  rw [trim, hright, hleft]

/-- No piece has the separator in it. -/
theorem not_mem_of_mem_splitOn {cs piece : List Char} (h : piece ∈ cs.splitOn sep) :
    sep ∉ piece := by
  induction cs generalizing piece with
  | nil =>
      rw [List.splitOn_nil, List.mem_singleton] at h
      rw [h]
      exact List.not_mem_nil
  | cons c cs ih =>
      rw [List.splitOn_cons_eq_if_modifyHead] at h
      split_ifs at h with hc
      · rcases List.mem_cons.mp h with rfl | hpiece
        · exact List.not_mem_nil
        · exact ih hpiece
      · have hall : ∀ piece ∈ cs.splitOn sep, sep ∉ piece := fun _ hp => ih hp
        revert h hall
        cases cs.splitOn sep with
        | nil => exact fun h => by cases h
        | cons x xs =>
            intro h hall
            rcases List.mem_cons.mp h with rfl | hpiece
            · rw [List.mem_cons, not_or]
              exact ⟨fun heq => hc (by simp [heq]), hall x List.mem_cons_self⟩
            · exact hall piece (List.mem_cons_of_mem _ hpiece)

/-- What stands before the first separator stays with the first piece. -/
theorem splitOn_append {before : List Char} (h : sep ∉ before) (cs : List Char) :
    (before ++ cs).splitOn sep = (cs.splitOn sep).modifyHead (before ++ ·) := by
  induction before with
  | nil => exact (congrFun List.modifyHead_id (cs.splitOn sep)).symm
  | cons c before ih =>
      rw [List.mem_cons, not_or] at h
      rw [List.cons_append, List.splitOn_cons_eq_if_modifyHead, if_neg (by simpa using Ne.symm h.1),
        ih h.2, List.modifyHead_modifyHead]
      rfl

/-- A joined text is split into the pieces of what was joined. -/
theorem splitOn_intercalate_flatMap {ls : List (List Char)} (h : ls ≠ []) :
    ([sep].intercalate ls).splitOn sep = ls.flatMap fun l => l.splitOn sep := by
  induction ls with
  | nil => exact absurd rfl h
  | cons l ls ih =>
      cases ls with
      | nil => simp
      | cons l' ls =>
          rw [List.intercalate_cons_cons, List.append_assoc, List.singleton_append,
            List.splitOn_append_cons_self, ih (List.cons_ne_nil _ _)]
          rfl

end

end Text
