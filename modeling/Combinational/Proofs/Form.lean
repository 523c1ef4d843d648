/-
This file proves that the form of a description is given by a grammar.

The grammar builds languages from single characters by concatenation, choice and repetition, line by
line as the format is specified. The words that it derives for a number, a reference, a gate line
and a whole text are those that numerals, references, gate lines and documents are written as. The
check of the form therefore accepts the language of the grammar and nothing else.
-/

import Combinational.Proofs.Passes
import Mathlib.Computability.Language

namespace Combinational.Lcf

open Computability

namespace Form

/-! ### The grammar -/

/-- The words of a single character, which is one of some characters. -/
def oneOf (characters : List Char) : Language Char :=
  {word | ∃ character ∈ characters, word = [character]}

/-- The words of a language, repeated at least once. -/
def oneOrMore (words : Language Char) : Language Char :=
  words * words∗

def decimalDigits : List Char :=
  ['0', '1', '2', '3', '4', '5', '6', '7', '8', '9']

def digits : Language Char :=
  oneOrMore (oneOf decimalDigits)

/-- A dash before the number of an input pin, or the numbers of a gate and a terminal with a dot
between them. -/
def reference : Language Char :=
  {['-']} * digits + digits * {['.']} * digits

def gateType : Language Char :=
  {['1']} + {['2']} + {['3']}

/-- The type of a gate, its references, and a zero. -/
def gateLine : Language Char :=
  gateType * oneOrMore ({[' ']} * reference) * {[' ', '0']}

/-- Two numbers and at least one gate line, which a line feed may follow. -/
def description : Language Char :=
  digits * {['\n']} * digits * {['\n']} * gateLine * ({['\n']} * gateLine)∗ * (1 + {['\n']})

/-! ### Words of the parts -/

theorem mem_literal_mul {literal word : List Char} {words : Language Char} :
    word ∈ {literal} * words ↔ ∃ rest ∈ words, literal ++ rest = word := by
  rw [Language.mem_mul]
  constructor
  · rintro ⟨_, rfl, rest, member, rfl⟩
    exact ⟨rest, member, rfl⟩
  · rintro ⟨rest, member, rfl⟩
    exact ⟨literal, rfl, rest, member, rfl⟩

theorem mem_mul_literal {literal word : List Char} {words : Language Char} :
    word ∈ words * {literal} ↔ ∃ start ∈ words, start ++ literal = word := by
  rw [Language.mem_mul]
  constructor
  · rintro ⟨start, member, _, rfl, rfl⟩
    exact ⟨start, member, rfl⟩
  · rintro ⟨start, member, rfl⟩
    exact ⟨start, member, literal, rfl, rfl⟩

theorem mem_kstar_oneOf {characters word : List Char} :
    word ∈ (oneOf characters)∗ ↔ ∀ character ∈ word, character ∈ characters := by
  rw [Language.mem_kstar]
  constructor
  · rintro ⟨pieces, rfl, each⟩ character member
    obtain ⟨piece, listed, inside⟩ := List.mem_flatten.mp member
    obtain ⟨other, allowed, rfl⟩ := each piece listed
    exact List.mem_singleton.mp inside ▸ allowed
  · intro allowed
    have whole : word = (word.map ([·])).flatten := by
      rw [← List.flatMap_def, List.flatMap_singleton']
    refine ⟨word.map ([·]), whole, fun piece listed => ?_⟩
    obtain ⟨character, member, rfl⟩ := List.mem_map.mp listed
    exact ⟨character, allowed character member, rfl⟩

theorem mem_oneOrMore_oneOf {characters word : List Char} :
    word ∈ oneOrMore (oneOf characters) ↔
      word ≠ [] ∧ ∀ character ∈ word, character ∈ characters := by
  rw [oneOrMore, Language.mem_mul]
  constructor
  · rintro ⟨_, ⟨first, allowed, rfl⟩, rest, others, rfl⟩
    exact ⟨List.cons_ne_nil _ _, List.forall_mem_cons.mpr ⟨allowed, mem_kstar_oneOf.mp others⟩⟩
  · rintro ⟨nonempty, allowed⟩
    obtain ⟨first, rest, rfl⟩ := List.exists_cons_of_ne_nil nonempty
    obtain ⟨firstAllowed, others⟩ := List.forall_mem_cons.mp allowed
    exact ⟨[first], ⟨first, firstAllowed, rfl⟩, rest, mem_kstar_oneOf.mpr others, rfl⟩

theorem mem_decimalDigits_iff {character : Char} :
    character ∈ decimalDigits ↔ character.isDigit = true := by
  have injective : Function.Injective Char.toNat := fun _ _ equal => Char.toNat_inj.mp equal
  have codes : decimalDigits.map Char.toNat = List.range' 48 10 := rfl
  rw [← List.mem_map_of_injective injective, codes, List.mem_range'_1, Char.isDigit_iff_toNat]
  show _ ↔ 48 ≤ character.toNat ∧ character.toNat ≤ 57
  omega

theorem mem_digits_iff {word : List Char} :
    word ∈ digits ↔ ∃ numeral : Numeral, numeral.digits = word := by
  rw [digits, mem_oneOrMore_oneOf]
  simp only [mem_decimalDigits_iff]
  constructor
  · rintro ⟨nonempty, numeric⟩
    exact ⟨⟨word, by simpa [Text.isNumeral, nonempty] using numeric⟩, rfl⟩
  · rintro ⟨numeral, rfl⟩
    simpa [Text.isNumeral] using numeral.isNumeral

theorem mem_reference_iff {word : List Char} :
    word ∈ reference ↔ ∃ reference : Reference, reference.characters = word := by
  rw [reference, Language.mem_add, mem_literal_mul, Language.mem_mul]
  constructor
  · rintro (⟨_, numeric, rfl⟩ | ⟨_, dotted, _, numeric, rfl⟩)
    · obtain ⟨pin, rfl⟩ := mem_digits_iff.mp numeric
      exact ⟨.input pin, rfl⟩
    · obtain ⟨terminal, rfl⟩ := mem_digits_iff.mp numeric
      obtain ⟨_, before, rfl⟩ := mem_mul_literal.mp dotted
      obtain ⟨producer, rfl⟩ := mem_digits_iff.mp before
      exact ⟨.gate producer terminal, (List.append_assoc producer.digits ['.'] _).symm⟩
  · rintro ⟨pin | ⟨producer, terminal⟩, rfl⟩
    · exact Or.inl ⟨pin.digits, mem_digits_iff.mpr ⟨pin, rfl⟩, rfl⟩
    · refine Or.inr ⟨producer.digits ++ ['.'], ?_, terminal.digits,
        mem_digits_iff.mpr ⟨terminal, rfl⟩, List.append_assoc ..⟩
      exact mem_mul_literal.mpr ⟨producer.digits, mem_digits_iff.mpr ⟨producer, rfl⟩, rfl⟩

/-! ### Repeated parts -/

section Repeated

variable {Token : Type} {words : Language Char} {write : Token → List Char}
  (written : ∀ {word}, word ∈ words ↔ ∃ token, write token = word) {separator : Char}

include written

theorem mem_kstar_separated {word : List Char} : word ∈ ({[separator]} * words)∗ ↔
    ∃ tokens : List Token, tokens.flatMap (fun token => separator :: write token) = word := by
  have separated : ∀ {piece}, piece ∈ {[separator]} * words ↔
      ∃ token, separator :: write token = piece := by
    intro piece
    rw [mem_literal_mul]
    constructor
    · rintro ⟨_, member, rfl⟩
      obtain ⟨token, rfl⟩ := written.mp member
      exact ⟨token, rfl⟩
    · rintro ⟨token, rfl⟩
      exact ⟨write token, written.mpr ⟨token, rfl⟩, rfl⟩
  rw [Language.mem_kstar]
  constructor
  · rintro ⟨pieces, rfl, each⟩
    obtain ⟨tokens, rfl⟩ := exists_of_forall_mem fun piece listed =>
      separated.mp (each piece listed)
    exact ⟨tokens, List.flatMap_def⟩
  · rintro ⟨tokens, rfl⟩
    refine ⟨_, List.flatMap_def, fun piece listed => ?_⟩
    obtain ⟨token, _, rfl⟩ := List.mem_map.mp listed
    exact separated.mpr ⟨token, rfl⟩

theorem mem_oneOrMore_separated {word : List Char} :
    word ∈ oneOrMore ({[separator]} * words) ↔ ∃ (first : Token) (others : List Token),
      (first :: others).flatMap (fun token => separator :: write token) = word := by
  rw [oneOrMore, Language.mem_mul]
  constructor
  · rintro ⟨_, once, _, repeated, rfl⟩
    obtain ⟨_, member, rfl⟩ := mem_literal_mul.mp once
    obtain ⟨first, rfl⟩ := written.mp member
    obtain ⟨others, rfl⟩ := (mem_kstar_separated written).mp repeated
    exact ⟨first, others, rfl⟩
  · rintro ⟨first, others, rfl⟩
    refine ⟨separator :: write first, ?_, _, (mem_kstar_separated written).mpr ⟨others, rfl⟩, rfl⟩
    exact mem_literal_mul.mpr ⟨write first, written.mpr ⟨first, rfl⟩, rfl⟩

end Repeated

/-! ### Lines and texts -/

theorem characters_gateLine (line : GateLine) : line.characters =
    [kindDigit line.kind] ++ (line.first :: line.others).flatMap (fun reference =>
      ' ' :: reference.characters) ++ [' ', '0'] := by
  unfold GateLine.characters lineCharacters lineWords
  rw [intercalate_cons_eq_append, List.flatMap_append, List.flatMap_map, List.append_assoc]
  rfl

theorem mem_gateType_iff {word : List Char} :
    word ∈ gateType ↔ ∃ kind, word = [kindDigit kind] := by
  rw [exists_kindDigit_iff, gateType, Language.mem_add, Language.mem_add, or_assoc]
  rfl

theorem mem_gateLine_iff {word : List Char} :
    word ∈ gateLine ↔ ∃ line : GateLine, line.characters = word := by
  rw [gateLine, mem_mul_literal]
  constructor
  · rintro ⟨_, member, rfl⟩
    obtain ⟨_, code, _, references, rfl⟩ := Language.mem_mul.mp member
    obtain ⟨kind, rfl⟩ := mem_gateType_iff.mp code
    obtain ⟨first, others, rfl⟩ := (mem_oneOrMore_separated mem_reference_iff).mp references
    exact ⟨⟨kind, first, others⟩, characters_gateLine _⟩
  · rintro ⟨line, rfl⟩
    rw [characters_gateLine]
    refine ⟨_, Language.append_mem_mul ?_ ?_, rfl⟩
    · exact mem_gateType_iff.mpr ⟨line.kind, rfl⟩
    · exact (mem_oneOrMore_separated mem_reference_iff).mpr ⟨line.first, line.others, rfl⟩

theorem characters_document (document : Document) : document.characters =
    document.inputs.digits ++ ['\n'] ++ document.gates.digits ++ ['\n'] ++
      document.first.characters ++
      document.others.flatMap (fun line => '\n' :: line.characters) ++
      if document.ended then ['\n'] else [] := by
  unfold Document.characters Document.lines
  rw [intercalate_cons_eq_append, List.map_cons, List.flatMap_cons, List.flatMap_cons,
    List.flatMap_map]
  simp only [List.append_assoc, List.cons_append, List.nil_append]

theorem mem_description_iff {word : List Char} :
    word ∈ description ↔ ∃ document : Document, document.characters = word := by
  constructor
  · -- The parts are taken off from the right, as the concatenations associate.
    rintro ⟨_, ⟨_, ⟨_, ⟨_, counts, _, rfl, rfl⟩, _, firstMember, rfl⟩, _, otherMembers, rfl⟩,
      _, ends, rfl⟩
    obtain ⟨_, ⟨_, inputsMember, _, rfl, rfl⟩, _, gatesMember, rfl⟩ := counts
    obtain ⟨inputs, rfl⟩ := mem_digits_iff.mp inputsMember
    obtain ⟨gates, rfl⟩ := mem_digits_iff.mp gatesMember
    obtain ⟨first, rfl⟩ := mem_gateLine_iff.mp firstMember
    obtain ⟨others, rfl⟩ := (mem_kstar_separated mem_gateLine_iff).mp otherMembers
    rcases ends with rfl | rfl
    · exact ⟨⟨inputs, gates, first, others, false⟩, characters_document _⟩
    · exact ⟨⟨inputs, gates, first, others, true⟩, characters_document _⟩
  · rintro ⟨document, rfl⟩
    rw [characters_document]
    refine Language.append_mem_mul (Language.append_mem_mul (Language.append_mem_mul
      (mem_mul_literal.mpr ⟨_, Language.append_mem_mul (mem_mul_literal.mpr ⟨_, ?_, rfl⟩) ?_, rfl⟩)
      ?_) ?_) ?_
    · exact mem_digits_iff.mpr ⟨document.inputs, rfl⟩
    · exact mem_digits_iff.mpr ⟨document.gates, rfl⟩
    · exact mem_gateLine_iff.mpr ⟨document.first, rfl⟩
    · exact (mem_kstar_separated mem_gateLine_iff).mpr ⟨document.others, rfl⟩
    · cases document.ended
      · exact Or.inl rfl
      · exact Or.inr rfl

end Form

/-! ### Main statement -/

theorem isDescription_toList (text : String) : isDescription text.toList = isWellFormed text := by
  rw [Bool.eq_iff_iff, isDescription_iff, isWellFormed_iff]
  refine exists_congr fun document => ?_
  rw [Document.text, ← String.toList_inj, String.toList_ofList]

/-- The check of the form accepts exactly the texts that the grammar derives, and these are the
texts that are read. -/
theorem isWellFormed_iff_mem_description (text : String) :
    isDescription text.toList = isWellFormed text ∧
    (isWellFormed text = true ↔ text.toList ∈ Form.description) := by
  refine ⟨isDescription_toList text, ?_⟩
  rw [← isDescription_toList, isDescription_iff, Form.mem_description_iff]

end Combinational.Lcf
