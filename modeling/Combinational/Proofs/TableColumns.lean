/-
This file reads a table back from its text.

The rule below the header has two dashes for each pin, on either side of a plus sign, so it gives
the numbers of pins. The line of a row has its digits on either side of a bar. Both signs are found
again, as nothing else in the line looks like them, and equal texts belong to equal tables.

A row that a simulation finds has a value for each pin. Its digits and the spaces after them take as
many characters as the dashes of the rule, and the bar stands below the plus sign.
-/

import Combinational.Proofs.History
import Combinational.Proofs.TableText

namespace Combinational

namespace TruthTable

/-! ### The digits of some values -/

/-- The digits of some values, with a space between each two of them. -/
def digitCharacters (values : List Bool) : List Char :=
  [' '].intercalate (values.map fun value => if value then ['1'] else ['0'])

theorem toList_rowText (row : Row) :
    row.text.toList = digitCharacters row.inputs ++ ' ' :: '|' :: ' ' ::
      digitCharacters row.outputs := by
  have characters : ∀ values : List Bool,
      (String.intercalate " " (digits values)).toList = digitCharacters values := by
    intro values
    rw [String.toList_intercalate, digits, List.map_map, digitCharacters]
    congr 2
    funext value
    cases value <;> rfl
  rw [Row.text, columns, String.toList_append, String.toList_append, characters, characters,
    List.append_assoc]
  rfl

theorem digitCharacters_cons (value : Bool) (others : List Bool) :
    digitCharacters (value :: others) = (if value then '1' else '0') ::
      others.flatMap fun value => [' ', if value then '1' else '0'] := by
  rw [digitCharacters, List.map_cons, Lcf.intercalate_cons_eq_append, List.flatMap_map]
  have pieces : (fun value : Bool => ' ' :: if value then ['1'] else ['0']) =
      fun value => [' ', if value then '1' else '0'] := by
    funext value
    cases value <;> rfl
  rw [pieces]
  cases value <;> rfl

theorem digitCharacters_injective : Function.Injective digitCharacters := by
  have digit : Function.Injective fun value : Bool => if value then ['1'] else ['0'] := by
    intro value other same
    cases value <;> cases other <;> first | rfl | cases same
  intro first second same
  cases first with
  | nil =>
    cases second with
    | nil => rfl
    | cons value others =>
      rw [digitCharacters_cons] at same
      cases same
  | cons value others =>
    cases second with
    | nil =>
      rw [digitCharacters_cons] at same
      cases same
    | cons otherValue otherOthers =>
      have unspaced : ∀ values : List Bool,
          ∀ piece ∈ values.map fun value => if value then ['1'] else ['0'], ' ' ∉ piece := by
        intro values piece listed
        obtain ⟨value, _, rfl⟩ := List.mem_map.mp listed
        cases value <;> decide
      have pieces := congrArg (List.splitOn ' ') same
      unfold digitCharacters at pieces
      rw [List.splitOn_intercalate ' ' (unspaced _) (by simp),
        List.splitOn_intercalate ' ' (unspaced _) (by simp)] at pieces
      exact List.map_injective_iff.mpr digit pieces

theorem length_digitCharacters {values : List Bool} (some : 1 ≤ values.length) :
    (digitCharacters values).length + 1 = 2 * values.length := by
  obtain ⟨value, others, rfl⟩ := List.exists_cons_of_length_pos some
  have spaced : ∀ others : List Bool,
      (others.flatMap fun value => [' ', if value then '1' else '0']).length =
        2 * others.length := by
    intro others
    induction others with
    | nil => rfl
    | cons other others inductionHypothesis =>
      rw [List.flatMap_cons, List.length_append, inductionHypothesis]
      simp only [List.length_cons, List.length_nil]
      omega
  rw [digitCharacters_cons, List.length_cons, spaced, List.length_cons]
  omega

theorem bar_not_mem_digitCharacters (values : List Bool) : '|' ∉ digitCharacters values := by
  intro member
  rcases Lcf.mem_of_mem_intercalate member with inSeparator | ⟨piece, listed, inside⟩
  · exact absurd inSeparator (by decide)
  · obtain ⟨value, _, rfl⟩ := List.mem_map.mp listed
    cases value <;> exact absurd inside (by decide)

/-! ### Rows and rules -/

theorem rowText_injective : Function.Injective Row.text := by
  intro first second same
  have characters := congrArg String.toList same
  rw [toList_rowText, toList_rowText] at characters
  -- The space before the bar goes with the digits, so that the bar follows what holds no bar.
  have before : ∀ row : Row, '|' ∉ digitCharacters row.inputs ++ [' '] := by
    intro row member
    rcases List.mem_append.mp member with inDigits | inSpace
    · exact bar_not_mem_digitCharacters _ inDigits
    · exact absurd inSpace (by decide)
  have after : '|' ∉ ' ' :: digitCharacters first.outputs := by
    rw [List.mem_cons, not_or]
    exact ⟨by decide, bar_not_mem_digitCharacters _⟩
  rw [List.append_cons, List.append_cons (digitCharacters second.inputs)] at characters
  obtain ⟨inputs, _, outputs⟩ :=
    (List.append_cons_inj_of_notMem (before first) after).mp characters
  have sameInputs := digitCharacters_injective (List.append_cancel_right inputs)
  have sameOutputs := digitCharacters_injective (List.cons.inj outputs).2
  obtain ⟨firstInputs, firstOutputs⟩ := first
  obtain rfl : firstInputs = second.inputs := sameInputs
  obtain rfl : firstOutputs = second.outputs := sameOutputs
  rfl

theorem toList_rule (count : Nat) : (rule count).toList = List.replicate (2 * count) '-' := by
  rw [rule, String.toList_join]
  induction count with
  | zero => rfl
  | succ count inductionHypothesis =>
    rw [List.replicate_succ, List.flatMap_cons, inductionHypothesis, Nat.mul_succ, Nat.add_comm,
      ← List.replicate_append_replicate]
    rfl

theorem plus_not_mem_rule (count : Nat) : '+' ∉ (rule count).toList := by
  rw [toList_rule]
  exact fun member => absurd (List.eq_of_mem_replicate member) (by decide)

theorem toList_rules (inputCount outputCount : Nat) :
    (rule inputCount ++ "+" ++ rule outputCount).toList =
      (rule inputCount).toList ++ '+' :: (rule outputCount).toList := by
  rw [String.toList_append, String.toList_append, List.append_assoc]
  rfl

/-- The numbers of pins are read off the rule. -/
theorem rules_injective {first second third fourth : Nat}
    (same : rule first ++ "+" ++ rule second = rule third ++ "+" ++ rule fourth) :
    first = third ∧ second = fourth := by
  have length : ∀ {count other : Nat}, (rule count).toList = (rule other).toList →
      count = other := by
    intro count other equal
    have lengths := congrArg List.length equal
    rw [toList_rule, toList_rule, List.length_replicate, List.length_replicate] at lengths
    omega
  have characters := congrArg String.toList same
  rw [toList_rules, toList_rules] at characters
  obtain ⟨inputs, _, outputs⟩ := (List.append_cons_inj_of_notMem (plus_not_mem_rule first)
    (plus_not_mem_rule second)).mp characters
  exact ⟨length inputs, length outputs⟩

theorem text_injective : Function.Injective TruthTable.text := by
  intro first second same
  have lines := (lines_text first).symm.trans
    ((congrArg (fun text => Lcf.lines text.toList) same).trans (lines_text second))
  have lines : first.lines = second.lines :=
    List.map_injective_iff.mpr (fun _ _ => String.toList_inj.mp) lines
  have header := List.append_inj lines rfl
  obtain ⟨inputs, outputs⟩ := rules_injective (List.cons.inj (List.cons.inj
    (List.cons.inj header.1).2).2).1
  have rows := Array.toList_inj.mp (List.map_injective_iff.mpr rowText_injective header.2)
  obtain ⟨inputCount, outputCount, rowList⟩ := first
  obtain rfl : inputCount = second.inputCount := inputs
  obtain rfl : outputCount = second.outputCount := outputs
  obtain rfl : rowList = second.rows := rows
  rfl

/-! ### Columns -/

/-- A character stands at a column of a line, counted from zero, and nowhere else in the line. -/
def StandsAt (character : Char) (column : Nat) (characters : List Char) : Prop :=
  ∀ position, characters[position]? = some character ↔ position = column

theorem standsAt_append {character : Char} {before after : List Char}
    (absentBefore : character ∉ before) (absentAfter : character ∉ after) :
    StandsAt character before.length (before ++ character :: after) := by
  intro position
  constructor
  · intro found
    rcases Nat.lt_trichotomy position before.length with less | equal | greater
    · rw [List.getElem?_append_left less] at found
      exact absurd (List.mem_of_getElem? found) absentBefore
    · exact equal
    · obtain ⟨distance, rfl⟩ := Nat.exists_eq_add_of_lt greater
      rw [List.getElem?_append_right (by omega), Nat.add_assoc, Nat.add_sub_cancel_left,
        List.getElem?_cons_succ] at found
      exact absurd (List.mem_of_getElem? found) absentAfter
  · rintro rfl
    rw [List.getElem?_append_right (Nat.le_refl _), Nat.sub_self]
    rfl

/-- The rule has its plus sign at the column that two characters for each input pin lead to. -/
theorem standsAt_rules (inputCount outputCount : Nat) :
    StandsAt '+' (2 * inputCount) (rule inputCount ++ "+" ++ rule outputCount).toList := by
  have stands := standsAt_append (plus_not_mem_rule inputCount) (plus_not_mem_rule outputCount)
  rwa [← toList_rules, toList_rule, List.length_replicate] at stands

theorem length_rules (inputCount outputCount : Nat) :
    (rule inputCount ++ "+" ++ rule outputCount).toList.length =
      2 * inputCount + 1 + 2 * outputCount := by
  rw [toList_rules, toList_rule, toList_rule, List.length_append, List.length_cons,
    List.length_replicate, List.length_replicate]
  omega

theorem standsAt_rowText {row : Row} (inputs : 1 ≤ row.inputs.length) :
    StandsAt '|' (2 * row.inputs.length) row.text.toList := by
  have absent : '|' ∉ digitCharacters row.inputs ++ [' '] := by
    rw [List.mem_append, not_or]
    exact ⟨bar_not_mem_digitCharacters _, by decide⟩
  have absentAfter : '|' ∉ ' ' :: digitCharacters row.outputs := by
    rw [List.mem_cons, not_or]
    exact ⟨by decide, bar_not_mem_digitCharacters _⟩
  have stands := standsAt_append absent absentAfter
  rwa [← List.append_cons, ← toList_rowText, List.length_append, List.length_singleton,
    length_digitCharacters inputs] at stands

theorem length_rowText {row : Row} (inputs : 1 ≤ row.inputs.length)
    (outputs : 1 ≤ row.outputs.length) :
    row.text.toList.length = 2 * row.inputs.length + 1 + 2 * row.outputs.length := by
  have inputCharacters := length_digitCharacters inputs
  have outputCharacters := length_digitCharacters outputs
  rw [toList_rowText, List.length_append, List.length_cons, List.length_cons, List.length_cons]
  omega

end TruthTable

/-! ### Tables of simulations -/

theorem length_of_mapM_eq_ok {Failure Item Value : Type} {items : List Item}
    {compute : Item → Except Failure Value} {values : List Value}
    (computes : items.mapM compute = .ok values) : values.length = items.length := by
  induction items generalizing values with
  | nil =>
    obtain rfl := Except.ok.inj computes
    rfl
  | cons item items inductionHypothesis =>
    rw [List.mapM_cons] at computes
    obtain ⟨value, _, computes⟩ := bind_eq_ok_iff.mp computes
    obtain ⟨others, rest, computes⟩ := bind_eq_ok_iff.mp computes
    obtain rfl := Except.ok.inj computes
    rw [List.length_cons, List.length_cons, inductionHypothesis rest]

namespace Circuit

theorem length_outputValues {circuit : Circuit} {values : List Bool}
    (evaluates : circuit.outputValues = .ok values) : values.length = circuit.outputCount := by
  obtain ⟨_, _, reads⟩ := bind_eq_ok_iff.mp evaluates
  exact length_of_mapM_eq_ok reads

/-- Assigning pins changes none of the lists. -/
theorem counts_of_assigns {circuit assigned : Circuit}
    (assigns : Relation.ReflTransGen Assigns circuit assigned) :
    assigned.inputCount = circuit.inputCount ∧ assigned.outputCount = circuit.outputCount := by
  induction assigns with
  | refl => exact ⟨rfl, rfl⟩
  | tail _ assign inductionHypothesis =>
    obtain ⟨_, _, _, _, rfl⟩ := assign
    exact inductionHypothesis

/-- A row has a value for each pin of a circuit. -/
def Covers (circuit : Circuit) (row : Row) : Prop :=
  row.inputs.length = circuit.inputCount ∧ row.outputs.length = circuit.outputCount

/-- What holds before a sweep, and of a result with one more row that covers the pins, holds after
the sweep. -/
theorem sweep_induction {Result : Type} {circuit : Circuit} {pattern : Nat → List Bool}
    {keep : Result → Row → Result} {motive : Result → Prop}
    (keeps : ∀ result row, circuit.Covers row → motive result → motive (keep result row))
    {count number : Nat} {result final : Result} (start : motive result) {current : Circuit}
    (assigns : Relation.ReflTransGen Assigns circuit current)
    (sweeps : (sweep pattern keep count number result current).1 = .ok final) : motive final := by
  induction count generalizing number result current with
  | zero =>
    obtain rfl := Except.ok.inj sweeps
    exact start
  | succ count inductionHypothesis =>
    unfold sweep at sweeps
    cases sets : current.setInputs (pattern number) with
    | error misuse =>
      rw [sets] at sweeps
      cases sweeps
    | ok assigned =>
      cases outputs : assigned.outputValues with
      | error misuse =>
        simp only [sets, outputs] at sweeps
        cases sweeps
      | ok values =>
        simp only [sets, outputs] at sweeps
        have further := assigns.trans (assigns_of_setInputs sets)
        have inputs : (pattern number).length = current.inputCount := by
          unfold setInputs at sets
          split at sets
          · assumption
          · cases sets
        refine inductionHypothesis (keeps _ _ ⟨?_, ?_⟩ start) further sweeps
        · exact inputs.trans (counts_of_assigns assigns).1
        · exact (length_outputValues outputs).trans (counts_of_assigns further).2

/-- The circuit, with the values that its pins hold or all of them, gives this table. -/
def Gives (circuit : Circuit) (table : TruthTable) : Prop :=
  circuit.simulate = .ok table ∨ circuit.truthTable.1 = .ok table

/-- The tables of a circuit name its pins, and each row has a value for each of them. -/
theorem Gives.covers {circuit : Circuit} {table : TruthTable} (gives : circuit.Gives table) :
    table.inputCount = circuit.inputCount ∧ table.outputCount = circuit.outputCount ∧
      ∀ row ∈ table.rows, circuit.Covers row := by
  rcases gives with simulates | tabulates
  · obtain ⟨outputs, evaluates, simulates⟩ := bind_eq_ok_iff.mp simulates
    obtain rfl := Except.ok.inj simulates
    refine ⟨rfl, rfl, fun row listed => ?_⟩
    obtain rfl : row = { inputs := circuit.inputValues, outputs } := by simpa using listed
    exact ⟨by simp [inputValues, inputCount], length_outputValues evaluates⟩
  · unfold truthTable sweepAssignments at tabulates
    cases all : Assignments.all circuit.inputCount with
    | error misuse =>
      rw [all] at tabulates
      cases tabulates
    | ok assignments =>
      simp only [all] at tabulates
      cases sweeps : (sweep (Pattern.bigEndian assignments.width) Array.push assignments.remaining
        assignments.next #[] circuit).1 with
      | error misuse =>
        rw [sweeps] at tabulates
        cases tabulates
      | ok rows =>
        rw [sweeps] at tabulates
        obtain rfl := Except.ok.inj tabulates
        have covers : ∀ row ∈ rows, circuit.Covers row := by
          refine sweep_induction (motive := fun rows : Array Row =>
            ∀ row ∈ rows, circuit.Covers row) (fun rows row covers before other listed => ?_)
            (by simp) Relation.ReflTransGen.refl sweeps
          rcases Array.mem_push.mp listed with earlier | rfl
          · exact before other earlier
          · exact covers
        exact ⟨rfl, rfl, covers⟩

end Circuit

namespace TruthTable

/-! ### Main statement -/

/-- Tables with the same text are equal. In the text of a table that a circuit with input pins and
output pins gives, the rows follow the rule, are as long as the rule, and have their bar below its
plus sign. -/
theorem text_spec :
    (∀ first second : TruthTable, first.text = second.text → first = second) ∧
    ∀ (circuit : Circuit) (table : TruthTable), circuit.Gives table →
      1 ≤ circuit.inputCount → 1 ≤ circuit.outputCount →
      ∃ rule : List Char, (Lcf.lines table.text.toList)[2]? = some rule ∧
        StandsAt '+' (2 * circuit.inputCount) rule ∧
        (Lcf.lines table.text.toList).drop 3 = table.rows.toList.map (·.text.toList) ∧
        ∀ line ∈ (Lcf.lines table.text.toList).drop 3,
          line.length = rule.length ∧ StandsAt '|' (2 * circuit.inputCount) line := by
  refine ⟨fun first second same => text_injective same, fun circuit table gives pins outputs => ?_⟩
  obtain ⟨inputCount, outputCount, covers⟩ := gives.covers
  have rows : (Lcf.lines table.text.toList).drop 3 = table.rows.toList.map (·.text.toList) := by
    rw [lines_text, lines, List.map_append, List.map_map]
    rfl
  refine ⟨(rule table.inputCount ++ "+" ++ rule table.outputCount).toList, ?_, ?_, rows, ?_⟩
  · rw [lines_text]
    rfl
  · rw [← inputCount]
    exact standsAt_rules _ _
  · intro line listed
    rw [rows] at listed
    obtain ⟨row, member, rfl⟩ := List.mem_map.mp listed
    obtain ⟨inputLength, outputLength⟩ := covers row (Array.mem_toList_iff.mp member)
    have stands : StandsAt '|' _ row.text.toList := standsAt_rowText (by omega)
    rw [inputLength] at stands
    refine ⟨?_, stands⟩
    rw [length_rules, length_rowText (by omega) (by omega), inputLength, outputLength, inputCount,
      outputCount]

/-- The table of the And gate of a pin and of the negation of another one. -/
theorem text_spec_inhibition :
    let circuit := Circuit.ofOperations [.addInput, .addInput, .addGate .and, .addGate .not,
      .connect (.ofIndex 2) (.ofIndex 0), .connect (.ofIndex 2) (.ofIndex 3),
      .connect (.ofIndex 3) (.ofIndex 1), .addOutput (.ofIndex 2), .sort]
    ∃ table, circuit.Gives table ∧ 1 ≤ circuit.inputCount ∧ 1 ≤ circuit.outputCount ∧
      ∃ rule : List Char, (Lcf.lines table.text.toList)[2]? = some rule ∧
        StandsAt '+' 4 rule ∧
        (Lcf.lines table.text.toList).drop 3 = table.rows.toList.map (·.text.toList) ∧
        ∀ line ∈ (Lcf.lines table.text.toList).drop 3,
          line.length = rule.length ∧ StandsAt '|' 4 line := by
  intro circuit
  have tabulates : circuit.truthTable.1.isOk = true := by decide +kernel
  cases table : circuit.truthTable.1 with
  | error misuse =>
    rw [table] at tabulates
    cases tabulates
  | ok found =>
    exact ⟨found, .inr table, by decide, by decide,
      text_spec.2 circuit found (.inr table) (by decide) (by decide)⟩

end TruthTable

end Combinational
