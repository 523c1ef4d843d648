/-
This file reads back the texts of descriptions.

The text of a description follows the grammar if there is a statement and every statement has a
source, and it is then read as the same description, as long as no number is too large to be kept.
Otherwise it is not read at all.
-/

import Combinational.Proofs.Grammar

namespace Combinational.Lcf

/-! ### Descriptions as they are written -/

/-- The shortest numeral of a number. -/
def Numeral.ofNat (number : Nat) : Numeral where
  digits := Nat.toDigits 10 number
  isNumeral := by
    have read := Text.numeral?_toDigits number
    unfold Text.numeral? at read
    split at read
    · assumption
    · cases read

theorem Numeral.value_ofNat (number : Nat) : (Numeral.ofNat number).value = number :=
  Nat.ofDigitChars_toDigits (by decide) (by decide)

theorem Numeral.number_ofNat {number : Nat} (bounded : number ≤ largestNumber) :
    (Numeral.ofNat number).number = number := by
  rw [Numeral.number, Numeral.value_ofNat, Nat.min_eq_left bounded]

/-- The reference that stands for a source, with the terminal that is always written. -/
def Reference.ofSource : Source → Reference
  | .input number => .input (.ofNat number)
  | .gate number => .gate (.ofNat number) (.ofNat 1)

theorem toList_sourceText (source : Source) :
    (sourceText source).toList = (Reference.ofSource source).characters := by
  cases source with
  | input number =>
    rw [sourceText, String.toList_append, Nat.toList_repr]
    rfl
  | gate number =>
    rw [sourceText, String.toList_append, Nat.toList_repr]
    rfl

theorem toList_statementText (statement : Statement) : (statementText statement).toList =
    lineCharacters statement.kind (statement.sources.map Reference.ofSource) := by
  have code : statement.kind.code.repr.toList = [kindDigit statement.kind] := by
    cases statement.kind <;> rfl
  have references : (statement.sources.map sourceText).map String.toList =
      (statement.sources.map Reference.ofSource).map Reference.characters := by
    rw [List.map_map, List.map_map]
    exact List.map_congr_left fun source _ => toList_sourceText source
  rw [statementText, String.toList_intercalate, List.map_append, List.map_append, references,
    List.map_singleton, code]
  rfl

namespace Description

/-- The lines of the text of a description. -/
def writtenLines (description : Description) : List (List Char) :=
  (Numeral.ofNat description.inputs).digits :: (Numeral.ofNat description.gates).digits ::
    description.statements.map fun statement =>
      lineCharacters statement.kind (statement.sources.map Reference.ofSource)

theorem flatMap_concat_eq_intercalate {pieces : List (List Char)} (nonempty : pieces ≠ []) :
    pieces.flatMap (· ++ ['\n']) = ['\n'].intercalate pieces ++ ['\n'] := by
  induction pieces with
  | nil => exact absurd rfl nonempty
  | cons piece others inductionHypothesis =>
    cases others with
    | nil => simp
    | cons next others =>
      rw [List.flatMap_cons, inductionHypothesis (List.cons_ne_nil _ _),
        List.intercalate_cons_of_ne_nil (List.cons_ne_nil _ _), List.append_assoc,
        List.append_assoc, List.append_assoc]

theorem toList_text (description : Description) :
    description.text.toList = ['\n'].intercalate description.writtenLines ++ ['\n'] := by
  have lines : (description.inputs.repr :: description.gates.repr ::
      description.statements.map statementText).map String.toList = description.writtenLines := by
    rw [List.map_cons, List.map_cons, List.map_map, Nat.toList_repr, Nat.toList_repr]
    refine congrArg (List.cons _ ∘ List.cons _) (List.map_congr_left fun statement _ => ?_)
    exact toList_statementText statement
  have nonempty : description.writtenLines ≠ [] := List.cons_ne_nil _ _
  rw [Description.text, String.toList_join, List.flatMap_map,
    ← flatMap_concat_eq_intercalate nonempty, ← lines, List.flatMap_map]
  refine List.flatMap_congr fun line _ => ?_
  rw [String.toList_append]
  rfl

theorem lines_text (description : Description) :
    Lcf.lines description.text.toList = description.writtenLines := by
  rw [toList_text]
  refine lines_of_ended (List.cons_ne_nil _ _) fun line member => ?_
  simp only [writtenLines, List.mem_cons, List.mem_map] at member
  rcases member with rfl | rfl | ⟨statement, _, rfl⟩
  · exact (Numeral.ofNat _).not_mem_digits (by decide)
  · exact (Numeral.ofNat _).not_mem_digits (by decide)
  · exact newline_not_mem_lineCharacters _ _

end Description

/-! ### Reading them back -/

/-- Whether the number of a source can be kept. -/
def IsKept : Source → Prop
  | .input number | .gate number => number ≤ largestNumber

/-- Whether all the numbers of a description can be kept. -/
structure Description.IsKept (description : Description) : Prop where
  inputs : description.inputs ≤ largestNumber
  gates : description.gates ≤ largestNumber
  sources : ∀ statement ∈ description.statements, ∀ source ∈ statement.sources, Lcf.IsKept source

theorem Reference.source_ofSource {source : Source} (kept : IsKept source) :
    (Reference.ofSource source).source = source := by
  cases source with
  | input number => exact congrArg Source.input (Numeral.number_ofNat kept)
  | gate number => exact congrArg Source.gate (Numeral.number_ofNat kept)

theorem readStatement?_written {statement : Statement}
    (kept : ∀ source ∈ statement.sources, IsKept source) :
    readStatement? (lineCharacters statement.kind (statement.sources.map Reference.ofSource)) =
      if statement.sources = [] then none else some statement := by
  have sources : (statement.sources.map Reference.ofSource).map Reference.source =
      statement.sources := by
    rw [List.map_map]
    exact (List.map_congr_left fun source member =>
      Reference.source_ofSource (kept source member)).trans (List.map_id _)
  rw [readStatement?_lineCharacters, sources]
  simp only [List.map_eq_nil_iff]

theorem mapM_readStatement?_written {statements : List Statement}
    (kept : ∀ statement ∈ statements, ∀ source ∈ statement.sources, IsKept source)
    {read : List Statement} :
    (statements.map fun statement => lineCharacters statement.kind
      (statement.sources.map Reference.ofSource)).mapM readStatement? = some read ↔
    (∀ statement ∈ statements, statement.sources ≠ []) ∧ read = statements := by
  induction statements generalizing read with
  | nil =>
    rw [List.map_nil, List.mapM_nil]
    constructor
    · intro done
      exact ⟨fun _ member => absurd member List.not_mem_nil, (Option.some.inj done).symm⟩
    · rintro ⟨_, rfl⟩
      rfl
  | cons statement others inductionHypothesis =>
    obtain ⟨keptFirst, keptOthers⟩ := List.forall_mem_cons.mp kept
    rw [List.map_cons, List.mapM_cons, readStatement?_written keptFirst, List.forall_mem_cons]
    by_cases unconnected : statement.sources = []
    · rw [if_pos unconnected]
      constructor
      · intro done
        cases done
      · rintro ⟨⟨connected, _⟩, _⟩
        exact absurd unconnected connected
    · rw [if_neg unconnected]
      constructor
      · intro done
        obtain ⟨_, same, done⟩ := Option.bind_eq_some_iff.mp done
        obtain rfl := Option.some.inj same
        obtain ⟨rest, readRest, whole⟩ := Option.bind_eq_some_iff.mp done
        obtain ⟨connected, rfl⟩ := (inductionHypothesis keptOthers).mp readRest
        exact ⟨⟨unconnected, connected⟩, (Option.some.inj whole).symm⟩
      · rintro ⟨⟨_, connected⟩, rfl⟩
        rw [(inductionHypothesis keptOthers).mpr ⟨connected, rfl⟩]
        rfl

/-- The text of a description is read as this description, unless a gate line has no reference or
there is no gate line at all. -/
theorem read?_description_text {description : Description} (kept : description.IsKept)
    {read : Description} : read? description.text = some read ↔
      description.statements ≠ [] ∧ (∀ statement ∈ description.statements,
        statement.sources ≠ []) ∧ read = description := by
  unfold read?
  rw [description.lines_text, Description.writtenLines]
  obtain ⟨inputs, gates, statements⟩ := description
  cases statements with
  | nil => simp
  | cons first others =>
    have statements : ∀ {read : List Statement}, _ ↔ _ ∧ read = first :: others :=
      mapM_readStatement?_written kept.sources
    rw [List.map_cons] at statements ⊢
    simp only [number?_digits, Numeral.number_ofNat kept.inputs, Numeral.number_ofNat kept.gates]
    constructor
    · intro done
      obtain ⟨_, same, done⟩ := Option.bind_eq_some_iff.mp done
      obtain rfl := Option.some.inj same
      obtain ⟨_, same, done⟩ := Option.bind_eq_some_iff.mp done
      obtain rfl := Option.some.inj same
      obtain ⟨rest, readRest, whole⟩ := Option.bind_eq_some_iff.mp done
      obtain ⟨connected, rfl⟩ := statements.mp readRest
      exact ⟨List.cons_ne_nil _ _, connected, (Option.some.inj whole).symm⟩
    · rintro ⟨_, connected, rfl⟩
      rw [statements.mpr ⟨connected, rfl⟩]
      rfl

end Combinational.Lcf
