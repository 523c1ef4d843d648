/-
This file describes the texts that are read as circuit descriptions.

A document is a circuit description as it is written, with its leading zeros, the terminals of its
references, and the line feed that may end it. Its text follows the grammar by construction, and
reading finds exactly the texts of documents: it gives every document the description that the
document stands for, and no description to any other text.
-/

import Combinational.Lcf.Reading
import Mathlib.Data.List.Basic

namespace Combinational.Lcf

/-! ### Documents -/

/-- A numeral as it is written. -/
structure Numeral where
  digits : List Char
  isNumeral : Text.isNumeral digits = true

namespace Numeral

def value (numeral : Numeral) : Nat :=
  Nat.ofDigitChars 10 numeral.digits 0

/-- The number that is read. -/
def number (numeral : Numeral) : Nat :=
  min numeral.value largestNumber

end Numeral

/-- A reference as it is written. -/
inductive Reference
  | input (pin : Numeral)
  | gate (producer terminal : Numeral)

namespace Reference

def characters : Reference → List Char
  | input pin => '-' :: pin.digits
  | gate producer terminal => producer.digits ++ '.' :: terminal.digits

def source : Reference → Source
  | input pin => .input pin.number
  | gate producer _ => .gate producer.number

end Reference

/-- The digit that stands for a kind of gate. -/
def kindDigit : GateKind → Char
  | .and => '1'
  | .or => '2'
  | .not => '3'

theorem exists_kindDigit_iff {word : List Char} :
    (∃ kind, word = [kindDigit kind]) ↔ word = ['1'] ∨ word = ['2'] ∨ word = ['3'] := by
  constructor
  · rintro ⟨_ | _ | _, rfl⟩ <;> simp [kindDigit]
  · rintro (rfl | rfl | rfl)
    · exact ⟨.and, rfl⟩
    · exact ⟨.or, rfl⟩
    · exact ⟨.not, rfl⟩

/-- The words of a line with a kind of gate and some references. -/
def lineWords (kind : GateKind) (references : List Reference) : List (List Char) :=
  [kindDigit kind] :: (references.map Reference.characters ++ [['0']])

def lineCharacters (kind : GateKind) (references : List Reference) : List Char :=
  [' '].intercalate (lineWords kind references)

/-- A gate line as it is written, with at least one reference. -/
structure GateLine where
  kind : GateKind
  first : Reference
  others : List Reference

namespace GateLine

def characters (line : GateLine) : List Char :=
  lineCharacters line.kind (line.first :: line.others)

def statement (line : GateLine) : Statement where
  kind := line.kind
  sources := (line.first :: line.others).map Reference.source

end GateLine

/-- A circuit description as it is written. -/
structure Document where
  inputs : Numeral
  gates : Numeral
  first : GateLine
  others : List GateLine
  /-- Whether a line feed ends the text. -/
  ended : Bool

namespace Document

def lines (document : Document) : List (List Char) :=
  document.inputs.digits :: document.gates.digits ::
    (document.first :: document.others).map GateLine.characters

def characters (document : Document) : List Char :=
  ['\n'].intercalate document.lines ++ if document.ended then ['\n'] else []

def text (document : Document) : String :=
  String.ofList document.characters

def description (document : Document) : Description where
  inputs := document.inputs.number
  gates := document.gates.number
  statements := (document.first :: document.others).map GateLine.statement

end Document

/-! ### What no word and no line contains -/

theorem Numeral.not_mem_digits (numeral : Numeral) {character : Char}
    (other : character.isDigit = false) : character ∉ numeral.digits := by
  intro member
  have numeric := numeral.isNumeral
  rw [Text.isNumeral, Bool.and_eq_true, List.all_eq_true] at numeric
  rw [numeric.2 character member] at other
  exact Bool.noConfusion other

theorem Numeral.digits_ne_nil (numeral : Numeral) : numeral.digits ≠ [] := by
  intro nil
  have numeric := numeral.isNumeral
  rw [nil] at numeric
  exact absurd numeric (by decide)

theorem Numeral.head?_digits_append (numeral : Numeral) {character : Char}
    (other : character.isDigit = false) (rest : List Char) :
    (numeral.digits ++ rest).head? ≠ some character := by
  obtain ⟨digit, others, digits⟩ := List.exists_cons_of_ne_nil numeral.digits_ne_nil
  rw [digits, List.cons_append, List.head?_cons]
  intro equal
  have member : character ∈ numeral.digits := by
    rw [digits, ← Option.some.inj equal]
    exact List.mem_cons_self
  exact numeral.not_mem_digits other member

theorem Reference.not_mem_characters (reference : Reference) {character : Char}
    (notDigit : character.isDigit = false) (notDash : character ≠ '-')
    (notDot : character ≠ '.') : character ∉ reference.characters := by
  cases reference with
  | input pin =>
    rw [Reference.characters, List.mem_cons, not_or]
    exact ⟨notDash, pin.not_mem_digits notDigit⟩
  | gate producer terminal =>
    rw [Reference.characters, List.mem_append, List.mem_cons, not_or, not_or]
    exact ⟨producer.not_mem_digits notDigit, notDot, terminal.not_mem_digits notDigit⟩

theorem not_mem_lineWords (kind : GateKind) (references : List Reference) {character : Char}
    (notDigit : character.isDigit = false) (notDash : character ≠ '-')
    (notDot : character ≠ '.') : ∀ word ∈ lineWords kind references, character ∉ word := by
  have notSingle : ∀ digit : Char, digit.isDigit = true → character ∉ [digit] := by
    intro digit isDigit member
    rw [List.mem_singleton.mp member, isDigit] at notDigit
    exact Bool.noConfusion notDigit
  intro word member
  simp only [lineWords, List.mem_cons, List.mem_append, List.mem_map, List.not_mem_nil,
    or_false] at member
  rcases member with rfl | ⟨reference, _, rfl⟩ | rfl
  · exact notSingle _ (by cases kind <;> decide)
  · exact reference.not_mem_characters notDigit notDash notDot
  · exact notSingle _ (by decide)

/-! ### Pieces between separators -/

theorem intercalate_cons_eq_append (separator : Char) (piece : List Char)
    (others : List (List Char)) :
    [separator].intercalate (piece :: others) = piece ++ others.flatMap (separator :: ·) := by
  induction others generalizing piece with
  | nil => simp
  | cons next others inductionHypothesis =>
    rw [List.intercalate_cons_cons, inductionHypothesis, List.flatMap_cons, List.append_assoc]
    rfl

theorem mem_of_mem_intercalate {separator : List Char} {pieces : List (List Char)}
    {character : Char} (member : character ∈ separator.intercalate pieces) :
    character ∈ separator ∨ ∃ piece ∈ pieces, character ∈ piece := by
  induction pieces with
  | nil => cases member
  | cons piece others inductionHypothesis =>
    by_cases nil : others = []
    · rw [nil, List.intercalate_singleton] at member
      exact Or.inr ⟨piece, List.mem_cons_self, member⟩
    · rw [List.intercalate_cons_of_ne_nil nil, List.mem_append, List.mem_append] at member
      rcases member with (inPiece | inSeparator) | inOthers
      · exact Or.inr ⟨piece, List.mem_cons_self, inPiece⟩
      · exact Or.inl inSeparator
      · rcases inductionHypothesis inOthers with inSeparator | ⟨other, listed, inOther⟩
        · exact Or.inl inSeparator
        · exact Or.inr ⟨other, List.mem_cons_of_mem _ listed, inOther⟩

/-- Nothing follows the last piece. -/
theorem getLast?_intercalate (separator : List Char) (pieces : List (List Char))
    {last : List Char} (nonempty : last ≠ []) :
    (separator.intercalate (pieces ++ [last])).getLast? = last.getLast? := by
  induction pieces with
  | nil => rw [List.nil_append, List.intercalate_singleton]
  | cons piece others inductionHypothesis =>
    rw [List.cons_append, List.intercalate_cons_of_ne_nil (by simp), List.getLast?_append,
      inductionHypothesis]
    obtain ⟨character, ends⟩ := Option.ne_none_iff_exists'.mp
      (mt List.getLast?_eq_none_iff.mp nonempty)
    rw [ends]
    rfl

theorem newline_not_mem_lineCharacters (kind : GateKind) (references : List Reference) :
    '\n' ∉ lineCharacters kind references := by
  intro member
  rcases mem_of_mem_intercalate member with inSeparator | ⟨word, listed, inside⟩
  · exact absurd inSeparator (by decide)
  · exact not_mem_lineWords kind references (by decide) (by decide) (by decide) word listed inside

theorem splitOn_lineCharacters (kind : GateKind) (references : List Reference) :
    (lineCharacters kind references).splitOn ' ' = lineWords kind references :=
  List.splitOn_intercalate ' '
    (not_mem_lineWords kind references (by decide) (by decide) (by decide)) (List.cons_ne_nil _ _)

theorem getLast?_lineCharacters (kind : GateKind) (references : List Reference) :
    (lineCharacters kind references).getLast? = some '0' := by
  have ends := getLast?_intercalate [' ']
    ([kindDigit kind] :: references.map Reference.characters) (List.cons_ne_nil '0' [])
  rwa [List.cons_append] at ends

theorem lineCharacters_ne_nil (kind : GateKind) (references : List Reference) :
    lineCharacters kind references ≠ [] := by
  intro nil
  have ends := getLast?_lineCharacters kind references
  rw [nil] at ends
  cases ends

/-- Lines that hold no line feed are found again, if one follows the last of them. -/
theorem lines_of_ended {pieces : List (List Char)} (nonempty : pieces ≠ [])
    (unbroken : ∀ piece ∈ pieces, '\n' ∉ piece) :
    Lcf.lines (['\n'].intercalate pieces ++ ['\n']) = pieces := by
  unfold Lcf.lines
  rw [if_pos List.getLast?_concat, List.dropLast_concat]
  exact List.splitOn_intercalate '\n' unbroken nonempty

/-- Lines that hold no line feed are found again without a line feed after them, if the last of them
is not empty. -/
theorem lines_of_unended {pieces : List (List Char)} {last : List Char}
    (ends : pieces.getLast? = some last) (filled : last ≠ [])
    (unbroken : ∀ piece ∈ pieces, '\n' ∉ piece) :
    Lcf.lines (['\n'].intercalate pieces) = pieces := by
  obtain ⟨earlier, rfl⟩ := List.getLast?_eq_some_iff.mp ends
  have unended : (['\n'].intercalate (earlier ++ [last])).getLast? ≠ some '\n' := by
    rw [getLast?_intercalate ['\n'] earlier filled]
    exact fun ends => unbroken last List.mem_concat_self (List.mem_of_getLast? ends)
  unfold Lcf.lines
  rw [if_neg unended]
  exact List.splitOn_intercalate '\n' unbroken (by simp)

theorem Document.newline_not_mem_lines (document : Document) :
    ∀ line ∈ document.lines, '\n' ∉ line := by
  intro line member
  simp only [Document.lines, List.mem_cons, List.mem_map] at member
  rcases member with rfl | rfl | ⟨gateLine, _, rfl⟩
  · exact document.inputs.not_mem_digits (by decide)
  · exact document.gates.not_mem_digits (by decide)
  · exact newline_not_mem_lineCharacters _ _

/-- Each gate line has a reference. -/
theorem Document.sources_ne_nil (document : Document) :
    ∀ statement ∈ document.description.statements, statement.sources ≠ [] := by
  intro statement member
  obtain ⟨line, _, rfl⟩ := List.mem_map.mp member
  exact List.cons_ne_nil _ _

/-- The last line is a gate line. -/
theorem Document.exists_getLast?_lines (document : Document) :
    ∃ line : GateLine, document.lines.getLast? = some line.characters := by
  obtain ⟨earlier, last, lines⟩ : ∃ earlier last,
      document.first :: document.others = earlier ++ [last] :=
    ⟨_, _, (List.dropLast_append_getLast (List.cons_ne_nil _ _)).symm⟩
  refine ⟨last, ?_⟩
  rw [Document.lines, lines, List.map_append, List.map_singleton, ← List.cons_append,
    ← List.cons_append, List.getLast?_concat]

theorem Document.lines_characters (document : Document) :
    Lcf.lines document.characters = document.lines := by
  unfold Document.characters
  cases document.ended with
  | false =>
    obtain ⟨line, ends⟩ := document.exists_getLast?_lines
    rw [if_neg Bool.false_ne_true, List.append_nil]
    exact lines_of_unended ends (lineCharacters_ne_nil _ _) document.newline_not_mem_lines
  | true =>
    rw [if_pos rfl]
    exact lines_of_ended (List.cons_ne_nil _ _) document.newline_not_mem_lines

/-! ### Reading the parts -/

theorem number?_eq_some_iff {characters : List Char} {number : Nat} :
    number? characters = some number ↔
      ∃ numeral : Numeral, numeral.digits = characters ∧ numeral.number = number := by
  unfold number? Text.numeral?
  constructor
  · intro read
    obtain ⟨value, valued, bounded⟩ := Option.map_eq_some_iff.mp read
    by_cases numeric : Text.isNumeral characters = true
    · rw [if_pos numeric] at valued
      rw [← Option.some.inj valued] at bounded
      exact ⟨⟨characters, numeric⟩, rfl, bounded⟩
    · rw [if_neg numeric] at valued
      cases valued
  · rintro ⟨numeral, rfl, rfl⟩
    rw [if_pos numeral.isNumeral]
    rfl

theorem number?_digits (numeral : Numeral) : number? numeral.digits = some numeral.number :=
  number?_eq_some_iff.mpr ⟨numeral, rfl, rfl⟩

/-- A word that does not begin with a dash is cut at its dots. -/
theorem readSource?_of_ne_dash {word : List Char} (other : word.head? ≠ some '-') :
    readSource? word = match word.splitOn '.' with
      | [gate, terminal] =>
        if Text.isNumeral terminal then (number? gate).map .gate else none
      | _ => none := by
  unfold readSource?
  split
  · exact absurd rfl other
  · rfl

theorem readSource?_characters (reference : Reference) :
    readSource? reference.characters = some reference.source := by
  cases reference with
  | input pin =>
    rw [Reference.characters, readSource?, number?_digits]
    rfl
  | gate producer terminal =>
    have pieces : (producer.digits ++ '.' :: terminal.digits).splitOn '.' =
        [producer.digits, terminal.digits] := by
      have notDot : ∀ piece ∈ [producer.digits, terminal.digits], '.' ∉ piece := by
        intro piece member
        simp only [List.mem_cons, List.not_mem_nil, or_false] at member
        rcases member with rfl | rfl
        · exact producer.not_mem_digits (by decide)
        · exact terminal.not_mem_digits (by decide)
      have back := List.splitOn_intercalate '.' notDot (List.cons_ne_nil _ _)
      rwa [List.intercalate_cons_cons, List.intercalate_singleton, List.append_assoc] at back
    have notDash := producer.head?_digits_append (by decide : '-'.isDigit = false)
      ('.' :: terminal.digits)
    rw [Reference.characters, readSource?_of_ne_dash notDash, pieces]
    simp only [terminal.isNumeral, if_true, number?_digits, Option.map_some]
    rfl

theorem readSource?_eq_some_iff {word : List Char} {source : Source} :
    readSource? word = some source ↔
      ∃ reference : Reference, reference.characters = word ∧ reference.source = source := by
  constructor
  · intro read
    unfold readSource? at read
    split at read
    · next pin =>
      obtain ⟨number, numbered, rfl⟩ := Option.map_eq_some_iff.mp read
      obtain ⟨numeral, rfl, rfl⟩ := number?_eq_some_iff.mp numbered
      exact ⟨.input numeral, rfl, rfl⟩
    · split at read
      · next gate terminal pieces =>
        by_cases numeric : Text.isNumeral terminal = true
        · rw [if_pos numeric] at read
          obtain ⟨number, numbered, rfl⟩ := Option.map_eq_some_iff.mp read
          obtain ⟨numeral, rfl, rfl⟩ := number?_eq_some_iff.mp numbered
          have back : ['.'].intercalate (word.splitOn '.') = word := List.intercalate_splitOn '.'
          rw [pieces, List.intercalate_cons_cons, List.intercalate_singleton,
            List.append_assoc] at back
          exact ⟨.gate numeral ⟨terminal, numeric⟩, back, rfl⟩
        · rw [if_neg numeric] at read
          cases read
      · cases read
  · rintro ⟨reference, rfl, rfl⟩
    exact readSource?_characters reference

theorem readKind?_eq_some_iff {word : List Char} {kind : GateKind} :
    readKind? word = some kind ↔ word = [kindDigit kind] := by
  constructor
  · intro read
    unfold readKind? at read
    split at read <;> cases read <;> rfl
  · rintro rfl
    cases kind <;> rfl

/-- If words are read one by one, so are lists of them. -/
theorem mapM_eq_some_iff {Token Value : Type} {read : List Char → Option Value}
    {write : Token → List Char} {meaning : Token → Value}
    (reads : ∀ word value, read word = some value ↔
      ∃ token, write token = word ∧ meaning token = value)
    {words : List (List Char)} {values : List Value} :
    words.mapM read = some values ↔
      ∃ tokens : List Token, tokens.map write = words ∧ tokens.map meaning = values := by
  induction words generalizing values with
  | nil =>
    rw [List.mapM_nil]
    constructor
    · intro read
      exact ⟨[], rfl, Option.some.inj read⟩
    · rintro ⟨tokens, written, rfl⟩
      rw [List.map_eq_nil_iff.mp written]
      rfl
  | cons word others inductionHypothesis =>
    rw [List.mapM_cons]
    constructor
    · intro read
      obtain ⟨value, first, rest⟩ := Option.bind_eq_some_iff.mp read
      obtain ⟨later, remaining, all⟩ := Option.bind_eq_some_iff.mp rest
      obtain rfl := Option.some.inj all
      obtain ⟨token, rfl, rfl⟩ := (reads _ _).mp first
      obtain ⟨tokens, rfl, rfl⟩ := inductionHypothesis.mp remaining
      exact ⟨token :: tokens, rfl, rfl⟩
    · rintro ⟨_ | ⟨token, tokens⟩, written, rfl⟩
      · cases written
      · obtain ⟨rfl, rfl⟩ := List.cons.inj written
        have first := (reads _ _).mpr ⟨token, rfl, rfl⟩
        have rest := inductionHypothesis.mpr ⟨tokens, rfl, rfl⟩
        rw [first, rest]
        rfl

/-- A line without references is refused. -/
theorem readStatement?_lineCharacters (kind : GateKind) (references : List Reference) :
    readStatement? (lineCharacters kind references) =
      if references = [] then none
      else some { kind, sources := references.map Reference.source } := by
  have known := readKind?_eq_some_iff.mpr (rfl : [kindDigit kind] = _)
  have sources : (references.map Reference.characters).mapM readSource? =
      some (references.map Reference.source) :=
    (mapM_eq_some_iff fun _ _ => readSource?_eq_some_iff).mpr ⟨references, rfl, rfl⟩
  unfold readStatement?
  rw [splitOn_lineCharacters, lineWords]
  cases references with
  | nil => rfl
  | cons first others =>
    rw [List.map_cons] at sources ⊢
    simp only [List.cons_append, List.getLast?_concat, if_true, List.dropLast_concat, known,
      sources, List.cons_ne_nil, if_false]
    rfl

theorem readStatement?_characters (line : GateLine) :
    readStatement? line.characters = some line.statement := by
  rw [GateLine.characters, readStatement?_lineCharacters, if_neg (List.cons_ne_nil _ _)]
  rfl

theorem readStatement?_eq_some_iff {line : List Char} {statement : Statement} :
    readStatement? line = some statement ↔
      ∃ gateLine : GateLine, gateLine.characters = line ∧ gateLine.statement = statement := by
  constructor
  · intro read
    unfold readStatement? at read
    split at read
    · next code source others words =>
      by_cases ends : others.getLast? = some ['0']
      · rw [if_pos ends] at read
        obtain ⟨kind, known, rest⟩ := Option.bind_eq_some_iff.mp read
        obtain ⟨sources, found, whole⟩ := Option.bind_eq_some_iff.mp rest
        obtain rfl := Option.some.inj whole
        obtain ⟨_ | ⟨first, references⟩, written, rfl⟩ :=
          (mapM_eq_some_iff fun _ _ => readSource?_eq_some_iff).mp found
        · cases written
        · obtain ⟨rfl, writtenOthers⟩ := List.cons.inj written
          refine ⟨⟨kind, first, references⟩, ?_, rfl⟩
          have back : [' '].intercalate (line.splitOn ' ') = line := List.intercalate_splitOn ' '
          rw [words, readKind?_eq_some_iff.mp known,
            ← List.dropLast_append_getLast? _ ends, ← writtenOthers] at back
          exact back
      · rw [if_neg ends] at read
        cases read
    · cases read
  · rintro ⟨gateLine, rfl, rfl⟩
    exact readStatement?_characters gateLine

/-! ### Reading a text -/

/-- The lines of a text, with the line feed that may end it, are the whole text. -/
theorem eq_intercalate_lines (characters : List Char) :
    characters = ['\n'].intercalate (Lcf.lines characters) ++
      if characters.getLast? = some '\n' then ['\n'] else [] := by
  unfold Lcf.lines
  rw [List.intercalate_splitOn]
  by_cases ends : characters.getLast? = some '\n'
  · rw [if_pos ends, if_pos ends, List.dropLast_append_getLast? _ ends]
  · rw [if_neg ends, if_neg ends, List.append_nil]

/-- A document is read as its description. -/
theorem read?_text (document : Document) :
    read? document.text = some document.description := by
  have statements : ((document.first :: document.others).map GateLine.characters).mapM
      readStatement? = some document.description.statements :=
    (mapM_eq_some_iff fun _ _ => readStatement?_eq_some_iff).mpr
      ⟨document.first :: document.others, rfl, rfl⟩
  unfold read?
  rw [Document.text, String.toList_ofList, document.lines_characters, Document.lines]
  rw [List.map_cons] at statements ⊢
  simp only [number?_digits, statements]
  rfl

theorem read?_eq_some_iff {text : String} {description : Description} :
    read? text = some description ↔
      ∃ document : Document, document.text = text ∧ document.description = description := by
  constructor
  · intro read
    unfold read? at read
    split at read
    · next inputs gates first others pieces =>
      obtain ⟨_, inputsRead, rest⟩ := Option.bind_eq_some_iff.mp read
      obtain ⟨_, gatesRead, rest⟩ := Option.bind_eq_some_iff.mp rest
      obtain ⟨_, statementsRead, whole⟩ := Option.bind_eq_some_iff.mp rest
      obtain rfl := Option.some.inj whole
      obtain ⟨inputs, rfl, rfl⟩ := number?_eq_some_iff.mp inputsRead
      obtain ⟨gates, rfl, rfl⟩ := number?_eq_some_iff.mp gatesRead
      obtain ⟨_ | ⟨firstLine, otherLines⟩, written, rfl⟩ :=
        (mapM_eq_some_iff fun _ _ => readStatement?_eq_some_iff).mp statementsRead
      · cases written
      · refine ⟨⟨inputs, gates, firstLine, otherLines, text.toList.getLast? = some '\n'⟩, ?_, rfl⟩
        rw [← written] at pieces
        have whole := eq_intercalate_lines text.toList
        rw [pieces] at whole
        rw [← String.toList_inj, Document.text, String.toList_ofList]
        simp only [Document.characters, Document.lines, decide_eq_true_eq]
        exact whole.symm
    · cases read
  · rintro ⟨document, rfl, rfl⟩
    exact read?_text document

/-- The well-formed texts are those of documents. -/
theorem isWellFormed_iff {text : String} :
    isWellFormed text = true ↔ ∃ document : Document, document.text = text := by
  rw [isWellFormed, Option.isSome_iff_exists]
  constructor
  · rintro ⟨description, read⟩
    obtain ⟨document, written, _⟩ := read?_eq_some_iff.mp read
    exact ⟨document, written⟩
  · rintro ⟨document, rfl⟩
    exact ⟨document.description, read?_text document⟩

end Combinational.Lcf
