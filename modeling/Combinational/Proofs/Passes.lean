/-
This file reads descriptions in two passes, and proves that the second one cannot fail.

The first pass checks the form of a text and keeps nothing. The second one cuts the text again and
takes for granted what the first has checked: it looks up words and lines by their position, cuts
each word at its first separator, and replaces a number that cannot be kept by the largest one.
After the first pass has accepted a text, none of this goes wrong, and the outcome is the
description that is read in a single pass.
-/

import Combinational.LoadError
import Combinational.Proofs.Grammar
import Mathlib.Data.List.TakeDrop
import Mathlib.Data.Set.List

namespace Combinational.Lcf

/-! ### Computations that may be misused -/

/-- A computation that may report a load error, and in which an operation may be misused. -/
abbrev Attempt := ExceptT LoadError (Except Misuse)

/-- The entry of a list at a position, which must be in the list. -/
def entry {Item : Type} (list : List Item) (position : Nat) : Attempt Item :=
  match list[position]? with
  | some item => pure item
  | none => ExceptT.lift (.error .missingEntry)

/-- The entries of a list from a position up to another one, which must not come before it. -/
def slice {Item : Type} (list : List Item) (first last : Nat) : Attempt (List Item) :=
  if first ≤ last ∧ last ≤ list.length then
    pure ((list.take last).drop first)
  else
    ExceptT.lift (.error .missingEntry)

/-- The parts of a word before and after the first separator. -/
def splitOnce? (separator : Char) (word : List Char) : Option (List Char × List Char) :=
  match word.dropWhile (· != separator) with
  | _ :: after => some (word.takeWhile (· != separator), after)
  | [] => none

/-! ### The first pass -/

/-- Whether a word has the form of a reference. -/
def isReference (word : List Char) : Bool :=
  match word with
  | '-' :: pin => Text.isNumeral pin
  | _ =>
    match splitOnce? '.' word with
    | some (gate, terminal) => Text.isNumeral gate && Text.isNumeral terminal
    | none => false

/-- Whether a line has the form of a gate line. -/
def isGateLine (line : List Char) : Bool :=
  let words := line.splitOn ' '
  3 ≤ words.length && [['1'], ['2'], ['3']].any (words.head? == some ·) &&
    words.getLast? == some ['0'] && words.tail.dropLast.all isReference

/-- Whether a text has the form of a circuit description. -/
def isDescription (text : List Char) : Bool :=
  match lines text with
  | inputs :: gates :: first :: others =>
    Text.isNumeral inputs && Text.isNumeral gates && (first :: others).all isGateLine
  | _ => false

/-! ### The second pass -/

/-- A word without the plus sign that it may begin with. -/
def unsigned : List Char → List Char
  | '+' :: digits => digits
  | digits => digits

/-- The number that a word denotes, which may have a plus sign but must not exceed a bound. -/
def parse? (largest : Nat) (word : List Char) : Option Nat :=
  (Text.numeral? (unsigned word)).filter (· ≤ largest)

/-- The number that a word denotes, or the largest number. -/
def parseIndex (word : List Char) : Nat :=
  (parse? largestNumber word).getD largestNumber

/-- The source that a word denotes. -/
def parseSource (word : List Char) : Attempt Source :=
  match word with
  | '-' :: pin => pure (.input (parseIndex pin))
  | _ =>
    match splitOnce? '.' word with
    | some (gate, _) => pure (.gate (parseIndex gate))
    | none => throw .malformed

/-- The kind of gate that a word denotes. -/
def parseKind (word : List Char) : Attempt GateKind :=
  match (parse? (UInt32.size - 1) word).bind GateKind.ofCode? with
  | some kind => pure kind
  | none => throw .malformed

/-- The statement that a line denotes. -/
def parseStatement (line : List Char) : Attempt Statement := do
  let words := line.splitOn ' '
  let kind ← parseKind (← entry words 0)
  let references ← slice words 1 (words.length - 1)
  let sources ← references.mapM parseSource
  return { kind, sources }

/-! ### The texts that the first pass accepts -/

theorem splitOnce?_append {separator : Char} {before : List Char} (absent : separator ∉ before)
    (after : List Char) :
    splitOnce? separator (before ++ separator :: after) = some (before, after) := by
  have passes : ∀ character ∈ before, (character != separator) = true := by
    intro character member
    exact bne_iff_ne.mpr fun equal => absent (equal ▸ member)
  unfold splitOnce?
  rw [List.dropWhile_append_of_pos passes, List.takeWhile_append_of_pos passes]
  simp

theorem eq_append_of_splitOnce? {separator : Char} {word before after : List Char}
    (split : splitOnce? separator word = some (before, after)) :
    word = before ++ separator :: after := by
  unfold splitOnce? at split
  split at split
  · next character rest remaining =>
    obtain ⟨rfl, rfl⟩ := Prod.mk.inj (Option.some.inj split)
    have stops : (character != separator) = false := by
      have head := List.head?_dropWhile_not (· != separator) word
      rw [remaining] at head
      simpa using head
    have same : character = separator := bne_eq_false_iff_eq.mp stops
    have whole : word.takeWhile (· != separator) ++ word.dropWhile (· != separator) = word :=
      List.takeWhile_append_dropWhile
    rw [remaining, same] at whole
    exact whole.symm
  · cases split

theorem isReference_of_ne_dash {word : List Char} (other : word.head? ≠ some '-') :
    isReference word = match splitOnce? '.' word with
      | some (gate, terminal) => Text.isNumeral gate && Text.isNumeral terminal
      | none => false := by
  unfold isReference
  split
  · exact absurd rfl other
  · rfl

theorem isReference_iff {word : List Char} :
    isReference word = true ↔ ∃ reference : Reference, reference.characters = word := by
  constructor
  · intro accepted
    unfold isReference at accepted
    split at accepted
    · next pin => exact ⟨.input ⟨pin, accepted⟩, rfl⟩
    · split at accepted
      · next gate terminal split =>
        rw [Bool.and_eq_true] at accepted
        exact ⟨.gate ⟨gate, accepted.1⟩ ⟨terminal, accepted.2⟩,
          (eq_append_of_splitOnce? split).symm⟩
      · cases accepted
  · rintro ⟨reference, rfl⟩
    cases reference with
    | input pin => exact pin.isNumeral
    | gate producer terminal =>
      have split := splitOnce?_append (producer.not_mem_digits (by decide : '.'.isDigit = false))
        terminal.digits
      rw [Reference.characters]
      rw [isReference_of_ne_dash (producer.head?_digits_append (by decide) _), split]
      simp only [producer.isNumeral, terminal.isNumeral, Bool.and_self]

theorem exists_of_forall_mem {Token : Type} {write : Token → List Char}
    {words : List (List Char)} (written : ∀ word ∈ words, ∃ token, write token = word) :
    ∃ tokens : List Token, tokens.map write = words := by
  have inRange : words ∈ {words | ∀ word ∈ words, word ∈ Set.range write} := written
  rwa [← Set.range_list_map] at inRange

theorem isGateLine_eq {line code : List Char} {middle : List (List Char)} {last : List Char}
    (words : line.splitOn ' ' = code :: (middle ++ [last])) :
    isGateLine line = true ↔ middle ≠ [] ∧ (∃ kind, code = [kindDigit kind]) ∧ last = ['0'] ∧
      ∀ word ∈ middle, isReference word = true := by
  have kinds : [['1'], ['2'], ['3']].any (some code == some ·) = true ↔
      ∃ kind, code = [kindDigit kind] := by
    rw [exists_kindDigit_iff]
    simp only [List.any_cons, List.any_nil, Bool.or_false, Bool.or_eq_true, beq_iff_eq,
      Option.some.injEq]
  have long : 3 ≤ (code :: (middle ++ [last])).length ↔ middle ≠ [] := by
    rw [← List.length_pos_iff, List.length_cons, List.length_append, List.length_singleton]
    omega
  have ends : (code :: (middle ++ [last])).getLast? = some last := by
    rw [← List.cons_append, List.getLast?_concat]
  unfold isGateLine
  simp only [words, ends, List.tail_cons, List.dropLast_concat, List.head?_cons, Bool.and_eq_true,
    decide_eq_true_eq, kinds, long, List.all_eq_true, beq_iff_eq, Option.some.injEq, and_assoc]

theorem isGateLine_iff {line : List Char} :
    isGateLine line = true ↔ ∃ gateLine : GateLine, gateLine.characters = line := by
  constructor
  · intro accepted
    have length : 3 ≤ (line.splitOn ' ').length := by
      unfold isGateLine at accepted
      simp only [Bool.and_eq_true, decide_eq_true_eq] at accepted
      exact accepted.1.1.1
    obtain ⟨code, middle, last, words⟩ : ∃ code middle last,
        line.splitOn ' ' = code :: (middle ++ [last]) := by
      rcases split : line.splitOn ' ' with _ | ⟨code, rest⟩
      · rw [split] at length
        cases length
      · rw [split, List.length_cons] at length
        have nonempty : rest ≠ [] := List.ne_nil_of_length_pos (by omega)
        exact ⟨code, _, _, by rw [List.dropLast_append_getLast nonempty]⟩
    obtain ⟨nonempty, ⟨kind, rfl⟩, rfl, references⟩ := (isGateLine_eq words).mp accepted
    obtain ⟨tokens, rfl⟩ := exists_of_forall_mem fun word member =>
      isReference_iff.mp (references word member)
    obtain _ | ⟨first, others⟩ := tokens
    · exact absurd rfl nonempty
    · have back : [' '].intercalate (line.splitOn ' ') = line := List.intercalate_splitOn ' '
      rw [words] at back
      exact ⟨⟨kind, first, others⟩, back⟩
  · rintro ⟨gateLine, rfl⟩
    have words : gateLine.characters.splitOn ' ' = [kindDigit gateLine.kind] ::
        ((gateLine.first :: gateLine.others).map Reference.characters ++ [['0']]) :=
      splitOn_lineCharacters _ _
    refine (isGateLine_eq words).mpr ⟨?_, ⟨gateLine.kind, rfl⟩, rfl, ?_⟩
    · exact List.cons_ne_nil _ _
    · intro word member
      obtain ⟨reference, _, rfl⟩ := List.mem_map.mp member
      exact isReference_iff.mpr ⟨reference, rfl⟩

theorem isDescription_iff {text : List Char} :
    isDescription text = true ↔ ∃ document : Document, document.characters = text := by
  constructor
  · intro accepted
    unfold isDescription at accepted
    split at accepted
    · next inputs gates first others pieces =>
      simp only [Bool.and_eq_true, List.all_eq_true] at accepted
      obtain ⟨⟨inputsNumeric, gatesNumeric⟩, gateLines⟩ := accepted
      obtain ⟨tokens, written⟩ := exists_of_forall_mem fun line member =>
        isGateLine_iff.mp (gateLines line member)
      obtain _ | ⟨firstLine, otherLines⟩ := tokens
      · cases written
      · have whole := eq_intercalate_lines text
        rw [pieces, ← written] at whole
        refine ⟨⟨⟨inputs, inputsNumeric⟩, ⟨gates, gatesNumeric⟩, firstLine, otherLines,
          text.getLast? = some '\n'⟩, ?_⟩
        simp only [Document.characters, Document.lines, decide_eq_true_eq]
        exact whole.symm
    · cases accepted
  · rintro ⟨document, rfl⟩
    unfold isDescription
    rw [document.lines_characters]
    have gateLines : ∀ line ∈ (document.first :: document.others).map GateLine.characters,
        isGateLine line = true := by
      intro line member
      obtain ⟨gateLine, _, rfl⟩ := List.mem_map.mp member
      exact isGateLine_iff.mpr ⟨gateLine, rfl⟩
    simp only [Document.lines, List.map_cons, document.inputs.isNumeral,
      document.gates.isNumeral, Bool.true_and]
    exact List.all_eq_true.mpr gateLines

/-! ### The second pass on such texts -/

theorem unsigned_digits (numeral : Numeral) : unsigned numeral.digits = numeral.digits := by
  have notPlus := numeral.head?_digits_append (by decide : '+'.isDigit = false) []
  rw [List.append_nil] at notPlus
  unfold unsigned
  split
  · next digits plus =>
    rw [plus] at notPlus
    exact absurd rfl notPlus
  · rfl

theorem parse?_digits (largest : Nat) (numeral : Numeral) :
    parse? largest numeral.digits = (some numeral.value).filter (· ≤ largest) := by
  rw [parse?, unsigned_digits, Text.numeral?, if_pos numeral.isNumeral, Numeral.value]

/-- A number that cannot be kept is replaced by the largest one, which is the smaller of both. -/
theorem parseIndex_digits (numeral : Numeral) : parseIndex numeral.digits = numeral.number := by
  rw [parseIndex, parse?_digits, Numeral.number]
  by_cases bounded : numeral.value ≤ largestNumber
  · rw [Option.filter_some, if_pos (decide_eq_true bounded), Nat.min_eq_left bounded]
    rfl
  · rw [Option.filter_some, if_neg (by rwa [decide_eq_true_eq]),
      Nat.min_eq_right (Nat.le_of_not_le bounded)]
    rfl

theorem parseSource_characters (reference : Reference) :
    parseSource reference.characters = pure reference.source := by
  cases reference with
  | input pin =>
    rw [Reference.source, ← parseIndex_digits]
    rfl
  | gate producer terminal =>
    have split := splitOnce?_append (producer.not_mem_digits (by decide : '.'.isDigit = false))
      terminal.digits
    have notDash := producer.head?_digits_append (by decide : '-'.isDigit = false)
      ('.' :: terminal.digits)
    rw [Reference.characters, Reference.source, ← parseIndex_digits]
    unfold parseSource
    split
    · next pin dash =>
      rw [dash] at notDash
      exact absurd rfl notDash
    · simp only [split]

theorem parseKind_kindDigit (kind : GateKind) : parseKind [kindDigit kind] = pure kind := by
  cases kind <;> rfl

theorem mapM_eq_pure {Token Value : Type} {parse : List Char → Attempt Value}
    {write : Token → List Char} {meaning : Token → Value}
    (parses : ∀ token, parse (write token) = pure (meaning token)) (tokens : List Token) :
    (tokens.map write).mapM parse = pure (tokens.map meaning) := by
  induction tokens with
  | nil => rfl
  | cons token others inductionHypothesis =>
    rw [List.map_cons, List.mapM_cons, parses, inductionHypothesis]
    rfl

theorem parseStatement_characters (line : GateLine) :
    parseStatement line.characters = pure line.statement := by
  have words : line.characters.splitOn ' ' = lineWords line.kind (line.first :: line.others) :=
    splitOn_lineCharacters _ _
  have code : entry (lineWords line.kind (line.first :: line.others)) 0 =
      pure [kindDigit line.kind] := rfl
  have references : slice (lineWords line.kind (line.first :: line.others)) 1
      ((lineWords line.kind (line.first :: line.others)).length - 1) =
        pure ((line.first :: line.others).map Reference.characters) := by
    have length : (lineWords line.kind (line.first :: line.others)).length =
        line.others.length + 3 := by
      simp [lineWords]
    rw [slice, if_pos (by omega), length]
    simp [lineWords]
  have sources : ((line.first :: line.others).map Reference.characters).mapM parseSource =
      pure line.statement.sources :=
    mapM_eq_pure parseSource_characters _
  unfold parseStatement
  simp only [words, code, references, sources, parseKind_kindDigit, pure_bind]
  rfl

end Combinational.Lcf
