/-
This file finds the lines of a table of text again.

The text of a table is its lines with a line feed between each two of them: the names of the pins,
their numbers and a rule, then the values of each row. No line is empty or holds a line feed, so
cutting the text at its line feeds gives the lines back.
-/

import Combinational.TruthTable
import Combinational.Proofs.Grammar

namespace Combinational.TruthTable

/-! ### Lines -/

/-- The names of the pins, their numbers and the rule below them. -/
def headerLines (inputCount outputCount : Nat) : List String :=
  [columns (List.replicate inputCount "i") (List.replicate outputCount "o"),
    columns (numbers inputCount) (numbers outputCount),
    rule inputCount ++ "+" ++ rule outputCount]

/-- The header and one line per row. -/
def lines (table : TruthTable) : List String :=
  headerLines table.inputCount table.outputCount ++ table.rows.toList.map Row.text

theorem toList_header (inputCount outputCount : Nat) :
    (header inputCount outputCount).toList =
      ['\n'].intercalate ((headerLines inputCount outputCount).map String.toList) := by
  simp [header, headerLines]

theorem toList_foldl_rows (rows : List Row) (text : String) :
    (rows.foldl (fun text row => text ++ "\n" ++ row.text) text).toList =
      text.toList ++ (rows.map (String.toList ∘ Row.text)).flatMap ('\n' :: ·) := by
  induction rows generalizing text with
  | nil => simp
  | cons row rows inductionHypothesis =>
    rw [List.foldl_cons, inductionHypothesis]
    simp

/-- The text of a table is its lines, with a line feed between each two of them. -/
theorem toList_text (table : TruthTable) :
    table.text.toList = ['\n'].intercalate (table.lines.map String.toList) := by
  have header (pieces : List (List Char)) :
      ['\n'].intercalate (headerLines table.inputCount table.outputCount |>.map String.toList) ++
        pieces.flatMap ('\n' :: ·) = ['\n'].intercalate
          ((headerLines table.inputCount table.outputCount).map String.toList ++ pieces) := by
    simp only [headerLines, List.map_cons, List.map_nil, List.cons_append, List.nil_append,
      Lcf.intercalate_cons_eq_append, List.flatMap_cons, List.flatMap_nil, List.append_nil,
      List.append_assoc]
  rw [text, ← Array.foldl_toList, toList_foldl_rows, toList_header, header, lines,
    List.map_append, List.map_map]

/-! ### What no line contains -/

theorem newline_not_mem_columns {inputs outputs : List String}
    (unbroken : ∀ entry ∈ inputs ++ outputs, '\n' ∉ entry.toList) :
    '\n' ∉ (columns inputs outputs).toList := by
  have entries {entries : List String} (listed : ∀ entry ∈ entries, entry ∈ inputs ++ outputs) :
      '\n' ∉ (String.intercalate " " entries).toList := by
    intro member
    rw [String.toList_intercalate] at member
    rcases Lcf.mem_of_mem_intercalate member with inSeparator | ⟨_, entered, inside⟩
    · exact absurd inSeparator (by decide)
    · obtain ⟨entry, listedEntry, rfl⟩ := List.mem_map.mp entered
      exact unbroken entry (listed entry listedEntry) inside
  have middle : '\n' ∉ " | ".toList := by decide
  rw [columns, String.toList_append, String.toList_append]
  simp only [List.mem_append, not_or]
  exact ⟨⟨entries fun _ => List.mem_append_left _, middle⟩,
    entries fun _ => List.mem_append_right _⟩

theorem newline_not_mem_numbers {count : Nat} {number : String} (listed : number ∈ numbers count) :
    '\n' ∉ number.toList := by
  obtain ⟨value, _, rfl⟩ := List.mem_map.mp listed
  rw [Nat.toList_repr]
  exact Text.not_mem_toDigits (by decide)

theorem newline_not_mem_digits {values : List Bool} {digit : String}
    (listed : digit ∈ digits values) : '\n' ∉ digit.toList := by
  obtain ⟨value, _, rfl⟩ := List.mem_map.mp listed
  cases value <;> decide

theorem newline_not_mem_rule (count : Nat) : '\n' ∉ (rule count).toList := by
  intro member
  rw [rule, String.toList_join, List.mem_flatMap] at member
  obtain ⟨dashes, listed, inside⟩ := member
  rw [List.eq_of_mem_replicate listed] at inside
  exact absurd inside (by decide)

theorem newline_not_mem_headerLines (inputCount outputCount : Nat) :
    ∀ line ∈ headerLines inputCount outputCount, '\n' ∉ line.toList := by
  intro line listed
  simp only [headerLines, List.mem_cons, List.not_mem_nil, or_false] at listed
  rcases listed with rfl | rfl | rfl
  · refine newline_not_mem_columns fun entry listed => ?_
    rcases List.mem_append.mp listed with named | named
    · rw [List.eq_of_mem_replicate named]
      decide
    · rw [List.eq_of_mem_replicate named]
      decide
  · refine newline_not_mem_columns fun entry listed => ?_
    exact (List.mem_append.mp listed).elim newline_not_mem_numbers newline_not_mem_numbers
  · simp only [String.toList_append, List.mem_append, not_or]
    exact ⟨⟨newline_not_mem_rule _, by decide⟩, newline_not_mem_rule _⟩

theorem newline_not_mem_row (row : Row) : '\n' ∉ row.text.toList :=
  newline_not_mem_columns fun _ listed =>
    (List.mem_append.mp listed).elim newline_not_mem_digits newline_not_mem_digits

theorem newline_not_mem_lines (table : TruthTable) :
    ∀ line ∈ table.lines, '\n' ∉ line.toList := by
  intro line listed
  rcases List.mem_append.mp listed with inHeader | inRows
  · exact newline_not_mem_headerLines _ _ line inHeader
  · obtain ⟨row, _, rfl⟩ := List.mem_map.mp inRows
    exact newline_not_mem_row row

/-! ### The lines of the text -/

theorem row_text_ne_nil (row : Row) : row.text.toList ≠ [] := by
  simp [Row.text, columns]

/-- The last line is a row, or the rule below the header. -/
theorem exists_getLast?_lines (table : TruthTable) :
    ∃ line, table.lines.getLast? = some line ∧ line.toList ≠ [] := by
  rcases List.eq_nil_or_concat' table.rows.toList with nil | ⟨earlier, last, rows⟩
  · refine ⟨rule table.inputCount ++ "+" ++ rule table.outputCount, ?_, by simp⟩
    rw [lines, nil]
    rfl
  · refine ⟨last.text, ?_, row_text_ne_nil last⟩
    rw [lines, rows, List.map_append, List.map_singleton, ← List.append_assoc,
      List.getLast?_concat]

theorem lines_text (table : TruthTable) :
    Lcf.lines table.text.toList = table.lines.map String.toList := by
  obtain ⟨last, ends, filled⟩ := table.exists_getLast?_lines
  have lastPiece : (table.lines.map String.toList).getLast? = some last.toList := by
    rw [List.getLast?_map, ends]
    rfl
  rw [toList_text]
  refine Lcf.lines_of_unended lastPiece filled fun piece listed => ?_
  obtain ⟨line, listedLine, rfl⟩ := List.mem_map.mp listed
  exact table.newline_not_mem_lines line listedLine

/-- The row at an index stands three lines below it. -/
theorem getElem?_lines_text (table : TruthTable) (index : Nat) :
    (Lcf.lines table.text.toList)[3 + index]? =
      table.rows[index]?.map (String.toList ∘ Row.text) := by
  have header : (headerLines table.inputCount table.outputCount).length = 3 := rfl
  rw [lines_text, List.getElem?_map, lines, List.getElem?_append_right (by omega), header,
    Nat.add_sub_cancel_left, List.getElem?_map, Array.getElem?_toList, Option.map_map]

/-- The last line of a table with a last row is that row. -/
theorem getLast?_lines_text {table : TruthTable} {earlier : List Row} {last : Row}
    (rows : table.rows.toList = earlier ++ [last]) :
    (Lcf.lines table.text.toList).getLast? = some last.text.toList := by
  rw [lines_text, lines, rows, List.map_append, List.map_append, List.map_singleton,
    List.map_append, List.map_singleton, ← List.append_assoc, List.getLast?_concat]

end Combinational.TruthTable
