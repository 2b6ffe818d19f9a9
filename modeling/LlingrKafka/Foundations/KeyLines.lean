import LlingrKafka.Foundations.Splitting

/-!
# Texts of lines `key = value`

Lines, prefixes and white space as Rust's `str` has them, for texts that are written one entry
a line and read back line by line (`valueOf_entry`, `lines_entry`).  A reader may come across
other lines in between, and with Windows line ends.
-/

namespace KeyLines

open Text

/-- A line without the `\r` of its end. -/
def endLine (line : List Char) : List Char :=
  if line.getLast? = some '\r' then line.dropLast else line

/-- `str::lines`: a line ends with `\n` or `\r\n`, and the last one may have no end. -/
def lines (cs : List Char) : List (List Char) :=
  let pieces := cs.splitOn '\n'
  pieces.dropLast.map endLine ++ (pieces.getLast?.filter (· ≠ [])).toList

/-- `str::strip_prefix`. -/
def stripPrefix (start cs : List Char) : Option (List Char) :=
  if start <+: cs then some (cs.drop start.length) else none

/-- What a line says of a key, if it is one of that key; a line without an equals sign has no
value for it. -/
def valueOf (key line : List Char) : Option (Option (List Char)) :=
  (stripPrefix key line).map fun rest => (stripPrefix ['='] (rest.dropWhile isSpace)).map trim

/-- An entry as it is written. -/
def entry (key value : List Char) : List Char := key ++ ' ' :: '=' :: ' ' :: value

theorem stripPrefix_append (start rest : List Char) :
    stripPrefix start (start ++ rest) = some rest := by
  rw [stripPrefix, if_pos (List.prefix_append ..), List.drop_left]

/-- A text without white space is trimmed. -/
theorem trim_eq_self {cs : List Char} (h : ∀ c ∈ cs, isSpace c = false) : trim cs = cs := by
  rw [trim, List.dropWhile_eq_self_iff.mpr, List.rdropWhile_eq_self_iff]
  · intro hne
    simp [h _ (List.getLast_mem hne)]
  · intro hlength
    simp [h _ (List.getElem_mem hlength)]

/-- So is an entry, whose key starts and whose value ends it. -/
theorem trim_entry {c : Char} {key value : List Char} (hc : isSpace c = false) (hne : value ≠ [])
    (hvalue : ∀ d ∈ value, isSpace d = false) :
    trim (entry (c :: key) value) = entry (c :: key) value := by
  obtain ⟨init, d, rfl⟩ := List.eq_nil_or_concat' value |>.resolve_left hne
  have hd : isSpace d = false := hvalue d (by simp)
  have hlast : entry (c :: key) (init ++ [d]) =
      (c :: (key ++ ' ' :: '=' :: ' ' :: init)) ++ [d] := by
    simp [entry]
  rw [trim, hlast, List.cons_append, List.dropWhile_cons_of_neg (by simp [hc]), ← List.cons_append,
    List.rdropWhile_concat_neg _ _ _ (by simp [hd])]

/-- An entry says of its key what was written. -/
theorem valueOf_entry {value : List Char} (hvalue : ∀ c ∈ value, isSpace c = false)
    (key : List Char) : valueOf key (entry key value) = some (some value) := by
  have hblank : isSpace ' ' = true := rfl
  have hequals : ¬ isSpace '=' = true := by decide
  have hstrip : stripPrefix ['='] ('=' :: ' ' :: value) = some (' ' :: value) :=
    stripPrefix_append ['='] (' ' :: value)
  calc valueOf key (entry key value)
      = some ((stripPrefix ['='] ('=' :: ' ' :: value)).map trim) := by
        rw [valueOf, entry, stripPrefix_append, Option.map_some,
          List.dropWhile_cons_of_pos hblank, List.dropWhile_cons_of_neg hequals]
    _ = some (some (trim (' ' :: value))) := by rw [hstrip, Option.map_some]
    _ = some (some value) := by rw [trim_cons hblank, trim_eq_self hvalue]

/-- It says nothing of a key that starts with another character. -/
theorem valueOf_eq_none {c d : Char} (hne : c ≠ d) (key line : List Char) :
    valueOf (c :: key) (d :: line) = none := by
  rw [valueOf, stripPrefix, if_neg, Option.map_none]
  intro hprefix
  exact hne (List.cons_prefix_cons.mp hprefix).1

/-- The first line of a text. -/
theorem lines_cons {line : List Char} (hline : '\n' ∉ line) (rest : List Char) :
    lines (line ++ '\n' :: rest) = endLine line :: lines rest := by
  have hne : rest.splitOn '\n' ≠ [] := List.splitOn_ne_nil _ _
  rw [lines, List.splitOn_append_cons_self_of_not_mem hline]
  rw [List.dropLast_cons_of_ne_nil hne, List.map_cons, List.getLast?_cons_of_ne_nil hne,
    List.cons_append]
  rfl

theorem lines_nil : lines [] = [] := rfl

/-- A line that is an entry is read as it was written. -/
theorem lines_entry {key value : List Char} (hkey : '\n' ∉ key) (hne : value ≠ [])
    (hvalue : ∀ c ∈ value, isSpace c = false) (rest : List Char) :
    lines (entry key value ++ '\n' :: rest) = entry key value :: lines rest := by
  have hline : '\n' ∉ entry key value := by
    intro hmem
    rcases List.mem_append.mp hmem with hmem | hmem
    · exact hkey hmem
    · simp only [List.mem_cons] at hmem
      rcases hmem with hmem | hmem | hmem | hmem
      · exact absurd hmem (by decide)
      · exact absurd hmem (by decide)
      · exact absurd hmem (by decide)
      · exact absurd (hvalue _ hmem) (by decide)
  rw [lines_cons hline, endLine, if_neg]
  intro hlast
  -- the last character is one of the value
  obtain ⟨init, d, rfl⟩ := List.eq_nil_or_concat' value |>.resolve_left hne
  have hentry : entry key (init ++ [d]) = (key ++ ' ' :: '=' :: ' ' :: init) ++ [d] := by
    simp [entry]
  rw [hentry, List.getLast?_concat] at hlast
  obtain rfl := Option.some_inj.mp hlast
  exact absurd (hvalue '\r' (by simp)) (by decide)

end KeyLines
