/-
This file states what is written after a text has been loaded.

A text may differ from what would be written in three ways: its numbers may have leading zeros, its
references to gates may name any terminal, and its last line may lack the line feed. The canonical
form of a text removes these differences word by word. It has the description of the text, so it is
what is written of the circuit that the text describes, and it describes this circuit again.

Nothing else is lost. Two texts describe the same circuit exactly if their canonical forms are equal.
-/

import Combinational.Proofs.Passes
import Combinational.Proofs.RoundTrip
import Mathlib.Data.List.Induction
import Mathlib.Data.List.TakeWhile

namespace Combinational.Lcf

open Circuit

/-! ### Canonical forms -/

/-- Digits without leading zeros. The last zero of a numeral that has no other digits is kept. -/
def canonicalDigits (digits : List Char) : List Char :=
  match digits.dropWhile (· == '0') with
  | [] => ['0']
  | significant => significant

/-- A word without the leading zeros of its number, in which a terminal is always `1`. -/
def canonicalWord (word : List Char) : List Char :=
  match word with
  | '-' :: pin => '-' :: canonicalDigits pin
  | _ =>
    match splitOnce? '.' word with
    | some (gate, _) => canonicalDigits gate ++ ['.', '1']
    | none => canonicalDigits word

def canonicalLine (line : List Char) : List Char :=
  [' '].intercalate ((line.splitOn ' ').map canonicalWord)

def canonicalCharacters (text : List Char) : List Char :=
  ((lines text).map canonicalLine).flatMap (· ++ ['\n'])

/-- The canonical form of a text: the same words, each of them in its canonical form, and a line
feed after each line. -/
def canonicalForm (text : String) : String :=
  String.ofList (canonicalCharacters text.toList)

/-! ### Leading zeros -/

theorem digitChar_toNat {digit : Char} (numeric : digit.isDigit = true) :
    digit.toNat - 48 < 10 ∧ Nat.digitChar (digit.toNat - 48) = digit := by
  have bounds : 48 ≤ digit.toNat ∧ digit.toNat ≤ 57 := Char.isDigit_iff_toNat.mp numeric
  have small : digit.toNat - 48 < 10 := by omega
  refine ⟨small, Char.toNat_inj.mp ?_⟩
  rw [Nat.toNat_digitChar_of_lt_ten small]
  omega

/-- The digits from the first one that is no zero are those of the number. -/
theorem dropWhile_zero_eq {digits : List Char}
    (numeric : ∀ digit ∈ digits, digit.isDigit = true) :
    digits.dropWhile (· == '0') =
      if Nat.ofDigitChars 10 digits 0 = 0 then []
      else Nat.toDigits 10 (Nat.ofDigitChars 10 digits 0) := by
  -- The last digit is taken off, as the value grows. It is a leading zero only if all are zeros.
  induction digits using List.reverseRecOn with
  | nil => rfl
  | append_singleton digits last inductionHypothesis =>
    have before := inductionHypothesis fun digit member =>
      numeric digit (List.mem_append_left _ member)
    obtain ⟨small, char⟩ := digitChar_toNat (numeric last (by simp))
    have value : Nat.ofDigitChars 10 (digits ++ [last]) 0 =
        10 * Nat.ofDigitChars 10 digits 0 + (last.toNat - 48) := by
      rw [Nat.ofDigitChars_append]
      rfl
    rw [value, List.dropWhile_append, before]
    by_cases zeros : Nat.ofDigitChars 10 digits 0 = 0
    · rw [if_pos zeros, zeros, Nat.mul_zero, Nat.zero_add, Nat.toDigits_of_lt_base small, char]
      have zero : (last == '0') = true ↔ last.toNat - 48 = 0 := by
        rw [beq_iff_eq, ← Nat.digitChar_eq_zero, char]
      by_cases equal : last.toNat - 48 = 0
      · simp [zero.mpr equal, equal]
      · simp [mt zero.mp equal, equal]
    · have positive : 0 < Nat.ofDigitChars 10 digits 0 := Nat.pos_of_ne_zero zeros
      have nonempty : (Nat.toDigits 10 (Nat.ofDigitChars 10 digits 0)).isEmpty = false := by
        simp [Nat.toDigits_ne_nil]
      rw [if_neg zeros, nonempty, if_neg Bool.false_ne_true, if_neg (by omega),
        ← Nat.toDigits_append_toDigits (by decide) positive small,
        Nat.toDigits_of_lt_base small, char]

theorem canonicalDigits_digits (numeral : Numeral) :
    canonicalDigits numeral.digits = (Numeral.ofNat numeral.value).digits := by
  have numeric : ∀ digit ∈ numeral.digits, digit.isDigit = true := by
    have numeric := numeral.isNumeral
    rw [Text.isNumeral, Bool.and_eq_true, List.all_eq_true] at numeric
    exact numeric.2
  unfold canonicalDigits
  rw [dropWhile_zero_eq numeric]
  show _ = Nat.toDigits 10 numeral.value
  by_cases zeros : numeral.value = 0
  · rw [zeros, if_pos (show Nat.ofDigitChars 10 numeral.digits 0 = 0 from zeros)]
    rfl
  · rw [if_neg (show Nat.ofDigitChars 10 numeral.digits 0 ≠ 0 from zeros)]
    split
    · next nothing => exact absurd nothing Nat.toDigits_ne_nil
    · rfl

/-- A number below the largest one is read as it is written. -/
theorem canonicalDigits_of_lt {numeral : Numeral} (small : numeral.number < largestNumber) :
    canonicalDigits numeral.digits = (Numeral.ofNat numeral.number).digits := by
  have exact : numeral.number = numeral.value := by
    unfold Numeral.number at small ⊢
    omega
  rw [canonicalDigits_digits, exact]

/-! ### Words, lines and texts -/

theorem splitOnce?_eq_none {separator : Char} {word : List Char} (absent : separator ∉ word) :
    splitOnce? separator word = none := by
  have nothing : word.dropWhile (· != separator) = [] := by
    refine List.dropWhile_eq_nil_iff.mpr fun character member => ?_
    exact bne_iff_ne.mpr fun equal => absent (equal ▸ member)
  rw [splitOnce?, nothing]

theorem canonicalWord_of_ne_dash {word : List Char} (other : word.head? ≠ some '-') :
    canonicalWord word = match splitOnce? '.' word with
      | some (gate, _) => canonicalDigits gate ++ ['.', '1']
      | none => canonicalDigits word := by
  unfold canonicalWord
  split
  · exact absurd rfl other
  · rfl

theorem canonicalLine_digits (numeral : Numeral) :
    canonicalLine numeral.digits = canonicalDigits numeral.digits := by
  have word : numeral.digits.splitOn ' ' = [numeral.digits] := by
    have noSpace : ∀ piece ∈ [numeral.digits], ' ' ∉ piece := by
      intro piece member
      rw [List.mem_singleton.mp member]
      exact numeral.not_mem_digits (by decide)
    have back := List.splitOn_intercalate ' ' noSpace (List.cons_ne_nil _ _)
    rwa [List.intercalate_singleton] at back
  have notDash := numeral.head?_digits_append (by decide : '-'.isDigit = false) []
  rw [List.append_nil] at notDash
  rw [canonicalLine, word, List.map_singleton, List.intercalate_singleton,
    canonicalWord_of_ne_dash notDash, splitOnce?_eq_none (numeral.not_mem_digits (by decide))]

/-- Whether the number of a source is below the largest one, so that it is read as it is written. -/
def IsExact : Source → Prop
  | .input number | .gate number => number < largestNumber

theorem canonicalWord_characters {reference : Reference} (exact : IsExact reference.source) :
    canonicalWord reference.characters = (Reference.ofSource reference.source).characters := by
  cases reference with
  | input pin => exact congrArg (List.cons '-') (canonicalDigits_of_lt exact)
  | gate producer terminal =>
    have notDash := producer.head?_digits_append (by decide : '-'.isDigit = false)
      ('.' :: terminal.digits)
    have split := splitOnce?_append (producer.not_mem_digits (by decide : '.'.isDigit = false))
      terminal.digits
    rw [Reference.characters, canonicalWord_of_ne_dash notDash, split]
    exact congrArg (· ++ ['.', '1']) (canonicalDigits_of_lt exact)

theorem canonicalLine_characters {line : GateLine}
    (exact : ∀ source ∈ line.statement.sources, IsExact source) :
    canonicalLine line.characters =
      lineCharacters line.kind (line.statement.sources.map Reference.ofSource) := by
  have code : canonicalWord [kindDigit line.kind] = [kindDigit line.kind] := by
    cases line.kind <;> rfl
  have references : ((line.first :: line.others).map Reference.characters).map canonicalWord =
      (line.statement.sources.map Reference.ofSource).map Reference.characters := by
    simp only [GateLine.statement, List.map_map]
    refine List.map_congr_left fun reference member => ?_
    exact canonicalWord_characters (exact _ (List.mem_map_of_mem member))
  unfold canonicalLine GateLine.characters
  rw [splitOn_lineCharacters, lineWords, List.map_cons, List.map_append, references, code]
  rfl

/-! ### Loaded texts -/

section Declared

variable {description : Description} (counted : description.IsCounted)

include counted

theorem Description.IsCounted.lt_largestNumber :
    description.inputs < largestNumber ∧ description.gates < largestNumber := by
  have inputs : description.inputs ≤ 16 := counted.inputs.2
  have gates : description.gates ≤ 1000 := counted.gates.2
  have large : largestNumber = 18446744073709551615 := rfl
  omega

theorem isExact_of_declares {source : Source} (declares : description.Declares source) :
    IsExact source := by
  obtain ⟨inputs, gates⟩ := counted.lt_largestNumber
  cases source with
  | input number =>
    simp only [Description.Declares, Source.isDefined, Bool.and_eq_true,
      decide_eq_true_eq] at declares
    exact Nat.lt_of_le_of_lt declares.2 inputs
  | gate number =>
    simp only [Description.Declares, Source.isDefined, Bool.and_eq_true,
      decide_eq_true_eq] at declares
    exact Nat.lt_of_le_of_lt declares.2 gates

theorem isKept_of_declares (declared : ∀ statement ∈ description.statements,
    ∀ source ∈ statement.sources, description.Declares source) : description.IsKept := by
  obtain ⟨inputs, gates⟩ := counted.lt_largestNumber
  refine ⟨Nat.le_of_lt inputs, Nat.le_of_lt gates, fun statement member source listed => ?_⟩
  have exact := isExact_of_declares counted (declared statement member source listed)
  cases source <;> exact Nat.le_of_lt exact

end Declared

/-- The canonical form of a text with declared sources is what its description is written as. -/
theorem canonicalForm_text {document : Document} (counted : document.description.IsCounted)
    (declared : ∀ statement ∈ document.description.statements, ∀ source ∈ statement.sources,
      document.description.Declares source) :
    canonicalForm document.text = document.description.text := by
  obtain ⟨inputs, gates⟩ := counted.lt_largestNumber
  have lines : document.lines.map canonicalLine = document.description.writtenLines := by
    unfold Document.lines Description.writtenLines
    rw [List.map_cons, List.map_cons, canonicalLine_digits, canonicalLine_digits,
      canonicalDigits_of_lt inputs, canonicalDigits_of_lt gates]
    simp only [Document.description, List.map_map]
    refine congrArg (List.cons _ ∘ List.cons _) (List.map_congr_left fun line member => ?_)
    exact canonicalLine_characters fun source listed =>
      isExact_of_declares counted (declared _ (List.mem_map_of_mem member) source listed)
  rw [← String.toList_inj, Description.toList_text, canonicalForm, String.toList_ofList,
    Document.text, String.toList_ofList, canonicalCharacters, document.lines_characters, lines]
  exact Description.flatMap_concat_eq_intercalate (List.cons_ne_nil _ _)

theorem describe_of_build {description : Description} {circuit : Circuit}
    (builds : (build description).1 = .ok circuit) : describe circuit = description := by
  obtain ⟨counted, declared, assembles⟩ := build_eq_ok_iff.mp builds
  rw [describe_of_assemble counted.bounded (counted.areDefined_iff.mpr declared) assembles,
    counted.statements]

theorem canonicalForm_of_load {text : String} {circuit : Circuit}
    (loads : (load text).1 = .ok circuit) :
    write circuit = canonicalForm text ∧ load (canonicalForm text) = load text := by
  obtain ⟨_, read, counted, declared, assembles⟩ := load_eq_ok_iff.mp loads
  obtain ⟨document, rfl, rfl⟩ := read?_eq_some_iff.mp read
  have again := (read?_description_text (isKept_of_declares counted declared)).mpr
    ⟨counted.statements_ne_nil, document.sources_ne_nil, rfl⟩
  have built := build_eq_ok_iff.mpr ⟨counted, declared, assembles⟩
  rw [canonicalForm_text counted declared, write, describe_of_build built]
  refine ⟨rfl, ?_⟩
  rw [load, load, again, read]

/-! ### Main statement -/

/-- Writing a loaded circuit gives the canonical form of the text. Loading that form is no different
from loading the text, so writing is idempotent, and two texts describe the same circuit exactly if
they have the same canonical form. -/
theorem write_load {text : String} {circuit : Circuit} (loads : (load text).1 = .ok circuit) :
    write circuit = canonicalForm text ∧
    load (canonicalForm text) = load text ∧
    canonicalForm (canonicalForm text) = canonicalForm text ∧
    ∀ other otherCircuit, (load other).1 = .ok otherCircuit →
      (circuit = otherCircuit ↔ canonicalForm text = canonicalForm other) := by
  obtain ⟨writes, again⟩ := canonicalForm_of_load loads
  have loadsAgain : (load (canonicalForm text)).1 = .ok circuit := by rw [again, loads]
  refine ⟨writes, again, ?_, fun other otherCircuit otherLoads => ?_⟩
  · exact (canonicalForm_of_load loadsAgain).1.symm.trans writes
  · obtain ⟨otherWrites, otherAgain⟩ := canonicalForm_of_load otherLoads
    constructor
    · rintro rfl
      exact writes.symm.trans otherWrites
    · intro same
      rw [← same, again] at otherAgain
      rw [← otherAgain, loads] at otherLoads
      exact Except.ok.inj otherLoads

/-- A text with leading zeros, several terminals and no final line feed describes the circuit that
its canonical form describes. -/
theorem canonicalForm_zeros_and_terminals :
    let text := "002\n3\n1 -1 2.7 0\n2 -01 -2 003.0 0\n3 -2 0"
    let canonical := "2\n3\n1 -1 2.1 0\n2 -1 -2 3.1 0\n3 -2 0\n"
    ∃ circuit, (load text).1 = .ok circuit ∧ write circuit = canonical ∧
      (load canonical).1 = .ok circuit := by
  intro text canonical
  let description : Description := { inputs := 2, gates := 3, statements := [
    ⟨.and, [.input 1, .gate 2]⟩, ⟨.or, [.input 1, .input 2, .gate 3]⟩, ⟨.not, [.input 2]⟩] }
  have characters : text.toList = ['0', '0', '2', '\n', '3', '\n', '1', ' ', '-', '1', ' ', '2', '.',
      '7', ' ', '0', '\n', '2', ' ', '-', '0', '1', ' ', '-', '2', ' ', '0', '0', '3', '.', '0', ' ',
      '0', '\n', '3', ' ', '-', '2', ' ', '0'] := by
    simp [text]
  have reads : read? text = some description := by
    unfold read?
    rw [characters]
    decide
  have declared : ∀ statement ∈ description.statements, ∀ source ∈ statement.sources,
      source.isDefined 2 3 = true := by
    decide
  obtain ⟨circuit, assembles⟩ : ∃ circuit, assemble 2 description.statements = .ok circuit := by
    have succeeds : (assemble 2 description.statements).isOk = true := by decide
    cases assembles : assemble 2 description.statements with
    | error failure => cases assembles ▸ succeeds
    | ok circuit => exact ⟨circuit, rfl⟩
  have loads : (load text).1 = .ok circuit := by
    rw [load, reads]
    exact build_eq_ok_iff.mpr ⟨⟨by decide, by decide, rfl⟩, declared, assembles⟩
  have form : canonicalForm text = canonical := by
    rw [canonicalForm, characters]
    rfl
  obtain ⟨writes, again, _⟩ := write_load loads
  rw [form] at writes again
  exact ⟨circuit, loads, writes, by rw [again, loads]⟩

end Combinational.Lcf
