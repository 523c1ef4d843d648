/-
This file follows the dialogue about the input pins word by word.

A simulation asks for one pin after the other. A line that is a digit, up to white space, is the
value of the pin that was asked for, and the next pin is asked for. Any other line is answered by a
message, and the same pin is asked for again. So the pin asked for next is determined by how many of
the lines so far were digits. The line that gives the last value is the last one read, and the
circuit is simulated for the values in the order of their lines.
-/

import Combinational.Proofs.Attempts
import Mathlib.Data.List.Induction

namespace Combinational

/-! ### White space around a text -/

namespace Text

/-- Nothing but white space is removed. -/
theorem exists_eq_append_trimCharacters (characters : List Char) : ∃ before after,
    (∀ blank ∈ before ++ after, isBlank blank = true) ∧
    characters = before ++ trimCharacters characters ++ after := by
  refine ⟨characters.takeWhile isBlank,
    ((characters.dropWhile isBlank).reverse.takeWhile isBlank).reverse, fun blank listed => ?_, ?_⟩
  · rcases List.mem_append.mp listed with before | after
    · exact List.mem_takeWhile_imp before
    · exact List.mem_takeWhile_imp (List.mem_reverse.mp after)
  · rw [trimCharacters, List.append_assoc, ← List.reverse_append, List.takeWhile_append_dropWhile,
      List.reverse_reverse, List.takeWhile_append_dropWhile]

/-- A single character is left exactly if there is nothing but white space around it. -/
theorem trimCharacters_eq_singleton_iff {characters : List Char} {character : Char}
    (filled : isBlank character = false) : trimCharacters characters = [character] ↔
      ∃ before after, (∀ blank ∈ before ++ after, isBlank blank = true) ∧
        characters = before ++ character :: after := by
  constructor
  · intro single
    obtain ⟨before, after, blank, split⟩ := exists_eq_append_trimCharacters characters
    rw [single, List.append_assoc] at split
    exact ⟨before, after, blank, split⟩
  · rintro ⟨before, after, blank, rfl⟩
    have blankBefore : ∀ blank ∈ before, isBlank blank = true := fun other listed =>
      blank other (List.mem_append_left _ listed)
    have blankAfter : ∀ blank ∈ after.reverse, isBlank blank = true := fun other listed =>
      blank other (List.mem_append_right _ (List.mem_reverse.mp listed))
    have stops : ¬ isBlank character = true := Bool.eq_false_iff.mp filled
    rw [trimCharacters, List.dropWhile_append_of_pos blankBefore, List.dropWhile_cons_of_neg stops,
      List.reverse_cons, List.dropWhile_append_of_pos blankAfter, List.dropWhile_cons_of_neg stops]
    rfl

end Text

namespace Menu

/-- A line gives a value exactly if it is a digit with white space around it. -/
theorem pinValue?_eq_some_iff {line : String} {value : Bool} : pinValue? line = some value ↔
    ∃ before after, (∀ blank ∈ before ++ after, Text.isBlank blank = true) ∧
      line.toList = before ++ (if value then '1' else '0') :: after := by
  have filled : Text.isBlank (if value then '1' else '0') = false := by
    cases value <;> decide
  have trims : Text.trim line = String.ofList [if value then '1' else '0'] ↔
      Text.trimCharacters line.toList = [if value then '1' else '0'] := by
    rw [Text.trim, String.ofList_inj]
  rw [← Text.trimCharacters_eq_singleton_iff filled, ← trims, pinValue?]
  split
  · next zero => cases value <;> simp [zero]
  · next one => cases value <;> simp [one]
  · next notZero notOne =>
    cases value with
    | false => exact iff_of_false nofun notZero
    | true => exact iff_of_false nofun notOne

/-! ### The dialogue so far -/

/-- The values that some lines give, in order. -/
def given (lines : List String) : List Bool :=
  lines.filterMap pinValue?

/-- What is shown for a line, after earlier ones: the question that it answers, and a message if it
gives no value. -/
def exchange (earlier : List String) (line : String) : String :=
  (Question.pin (given earlier)).prompt ++
    if (pinValue? line).isSome then "" else "The value of input pin must be 0/1\n"

/-- What is shown while some lines are read. -/
def transcript (lines : List String) : String :=
  String.join (lines.mapIdx fun position line => exchange (lines.take position) line)

theorem given_concat (earlier : List String) (line : String) :
    given (earlier ++ [line]) = given earlier ++ (pinValue? line).toList := by
  unfold given
  rw [List.filterMap_append]
  cases answer : pinValue? line <;> simp [answer]

theorem transcript_concat (earlier : List String) (line : String) :
    transcript (earlier ++ [line]) = transcript earlier ++ exchange earlier line := by
  unfold transcript
  have before : earlier.mapIdx (fun position other =>
      exchange ((earlier ++ [line]).take position) other) =
        earlier.mapIdx fun position other => exchange (earlier.take position) other := by
    rw [List.mapIdx_eq_mapIdx_iff]
    intro position inside
    rw [List.take_append_of_le_length inside.le]
  rw [List.mapIdx_concat, String.join_append, List.take_left, before]
  simp

/-! ### One line -/

section Reading

variable (directory : Directory) (scope : Scope) {circuit : Circuit} {values : List Bool}

theorem askPins_of_lacking (lacking : values.length < circuit.inputCount) :
    askPins (some circuit) values = { circuit := some circuit, turn := .ask (.pin values) } :=
  if_pos lacking

/-- The text of a reply may as well have been shown before it. -/
theorem converse_text (text : String) (log : List Log.Record) (reply : Reply)
    (lines : List Line) :
    converse Directory.files scope text log reply lines =
      converse Directory.files scope (text ++ reply.text) log { reply with text := "" } lines := by
  rw [converse.eq_def, converse.eq_def]
  simp only [String.append_empty]

/-- A line is answered by what is shown for it, and by the question for the next pin. -/
theorem converse_askPins_text {lines : List String}
    (lacking : (given lines).length < circuit.inputCount) (text : String)
    (log : List Log.Record) (line : String) (rest : List Line) :
    (converse Directory.files scope text log (askPins (some circuit) (given lines))
      (.text line :: rest)).run directory =
    (converse Directory.files scope (text ++ exchange lines line) log
      (askPins (some circuit) (given (lines ++ [line]))) rest).run directory := by
  rw [askPins_of_lacking lacking, converse_answer rfl]
  simp only [replyTo, answerPin_eq]
  rw [given_concat, exchange]
  cases answer : pinValue? line with
  | some value => simp
  | none =>
    simp only [Option.toList_none, List.append_nil]
    rw [converse_text, askPins_of_lacking lacking]
    simp [String.append_assoc]

end Reading

/-! ### Many lines -/

/-- The lines give fewer values than there are pins. -/
def Lacks (count : Nat) (lines : List String) : Prop :=
  (given lines).length < count

/-- The last one of the lines gives the last value that was needed. -/
structure Completes (count : Nat) (lines : List String) : Prop where
  length_eq : (given lines).length = count
  lacks : Lacks count lines.dropLast

theorem Lacks.dropLast {count : Nat} {lines : List String} (lacks : Lacks count lines) :
    Lacks count lines.dropLast := by
  have fewer : (given lines.dropLast).length ≤ (given lines).length :=
    (lines.dropLast_sublist.filterMap pinValue?).length_le
  exact Nat.lt_of_le_of_lt fewer lacks

section Run

variable (directory : Directory) (scope : Scope) {circuit : Circuit}

/-- As long as values are lacking, the dialogue goes on to the next line. -/
theorem converse_askPins_append {lines : List String}
    (lacks : Lacks circuit.inputCount lines.dropLast) (text : String) (log : List Log.Record)
    (rest : List Line) :
    (converse Directory.files scope text log (askPins (some circuit) [])
      (lines.map .text ++ rest)).run directory =
    (converse Directory.files scope (text ++ transcript lines) log
      (askPins (some circuit) (given lines)) rest).run directory := by
  -- Lines are added at the end, since the question for a line depends on all the lines before it.
  induction lines using List.reverseRecOn generalizing rest with
  | nil =>
    show _ = (converse Directory.files scope (text ++ "") log _ rest).run directory
    rw [String.append_empty]
    rfl
  | append_singleton earlier line inductionHypothesis =>
    rw [List.dropLast_concat] at lacks
    rw [List.map_append, List.append_assoc, inductionHypothesis lacks.dropLast,
      List.map_singleton, List.singleton_append, converse_askPins_text _ _ lacks,
      transcript_concat, String.append_assoc]

/-- Once all values are given, the circuit is simulated, and the other lines are left. -/
theorem converse_of_completes {lines : List String}
    (completes : Completes circuit.inputCount lines) (text : String) (log : List Log.Record)
    (rest : List Line) :
    (converse Directory.files scope text log (askPins (some circuit) [])
      (lines.map .text ++ rest)).run directory =
    (converse Directory.files scope (text ++ transcript lines) log
      (showSimulation circuit (given lines)) rest).run directory := by
  have enough : ¬ (given lines).length < circuit.inputCount := by
    rw [completes.length_eq]
    exact Nat.lt_irrefl _
  rw [converse_askPins_append _ _ completes.lacks, askPins]
  simp only [if_neg enough]

section Lacking

variable {lines : List String} (lacks : Lacks circuit.inputCount lines)

include lacks

/-- At the end of the input, the next question stays without an answer. -/
theorem converse_of_exhausted (text : String) (log : List Log.Record) :
    (converse Directory.files scope text log (askPins (some circuit) [])
      (lines.map .text)).run directory =
    ({ result := .ok false
       text := text ++ transcript lines ++ (Question.pin (given lines)).prompt
       log := log
       circuit := some circuit
       rest := [] }, directory) := by
  have whole := converse_askPins_append directory scope lacks.dropLast text log []
  rw [List.append_nil] at whole
  rw [whole, askPins_of_lacking lacks, converse]
  simp only [Turn.next, String.append_empty, List.append_nil]
  rfl

/-- A line that is not text answers no question. -/
theorem converse_of_garbled (text : String) (log : List Log.Record) (rest : List Line) :
    (converse Directory.files scope text log (askPins (some circuit) [])
      (lines.map .text ++ .garbled :: rest)).run directory =
    ({ result := .error (.line .invalidText)
       text := text ++ transcript lines ++ (Question.pin (given lines)).prompt
       log := log
       circuit := some circuit
       rest := rest }, directory) := by
  rw [converse_askPins_append _ _ lacks.dropLast, askPins_of_lacking lacks, converse]
  simp only [Turn.next, String.append_empty, List.append_nil]
  rfl

end Lacking

end Run

/-! ### All the lines -/

/-- What becomes of a dialogue about some number of pins that is followed by some lines. -/
inductive Reading (count : Nat) : List Line → Except Failure Bool → Prop
  /-- Some lines give all the values, and the menu goes on after them. -/
  | completes {lines : List String} (completes : Completes count lines) (rest : List Line) :
    Reading count (lines.map .text ++ rest) (.ok true)
  /-- The lines end before all the values are given, and so does the menu. -/
  | exhausted {lines : List String} (lacks : Lacks count lines) :
    Reading count (lines.map .text) (.ok false)
  /-- A line that is not text comes before all the values are given. -/
  | garbled {lines : List String} (lacks : Lacks count lines) (rest : List Line) :
    Reading count (lines.map .text ++ .garbled :: rest) (.error (.line .invalidText))

theorem exists_reading {count : Nat} (positive : 1 ≤ count) (lines : List Line) :
    ∃ result, Reading count lines result := by
  induction lines using List.reverseRecOn with
  | nil =>
    have lacks : Lacks count [] := positive
    exact ⟨_, .exhausted lacks⟩
  | append_singleton earlier last inductionHypothesis =>
    obtain ⟨_, reading⟩ := inductionHypothesis
    cases reading with
    | completes completes rest =>
      rw [List.append_assoc]
      exact ⟨_, .completes completes _⟩
    | garbled lacks rest =>
      rw [List.append_assoc]
      exact ⟨_, .garbled lacks _⟩
    -- Only here does the dialogue wait for one more line.
    | exhausted lacks =>
      rename_i texts
      cases last with
      | garbled => exact ⟨_, .garbled lacks []⟩
      | text line =>
        have whole : texts.map Line.text ++ [.text line] = (texts ++ [line]).map .text := by
          rw [List.map_append, List.map_singleton]
        by_cases further : Lacks count (texts ++ [line])
        · rw [whole]
          exact ⟨_, .exhausted further⟩
        · have reaches : (given (texts ++ [line])).length = count := by
            unfold Lacks at lacks further
            rw [given_concat, List.length_append] at further ⊢
            have single : (pinValue? line).toList.length ≤ 1 := by
              cases pinValue? line <;> simp
            omega
          have completes : Completes count (texts ++ [line]) :=
            ⟨reaches, by rwa [List.dropLast_concat]⟩
          rw [whole, ← List.append_nil ((texts ++ [line]).map Line.text)]
          exact ⟨_, .completes completes []⟩

/-! ### Main statement -/

/-- The reply to the last value, with the table that has the row of the values only. -/
def rowReply (assigned : Circuit) (values outputs : List Bool) : Reply where
  text := "Simulation Result:\n" ++ TruthTable.text {
    inputCount := assigned.inputCount
    outputCount := assigned.outputCount
    rows := #[{ inputs := values, outputs }] } ++ "\n"
  circuit := some assigned
  turn := .done true

section Loaded

variable {source : String} {circuit : Circuit} (loads : (Lcf.load source).1 = .ok circuit)
  (held : DeviceId → Bool) (directory : Directory)

include loads

theorem showSimulation_withPins {values : List Bool}
    (length : values.length = circuit.inputCount) :
    showSimulation (circuit.withPins held) values =
      rowReply (circuit.assigned values) values (circuit.response values) := by
  have ready := (Circuit.isReady_of_load loads).1.withPins held
  have report : (circuit.withPins held).report values = circuit.report values := by
    unfold Circuit.report Circuit.rowFor Circuit.response
    rw [Circuit.fullTable_withPins, Circuit.assigned_withPins]
  rw [showSimulation_eq ready length, report, Circuit.assigned_withPins]
  rfl

/-- The row has the outputs of the circuit for the values in the order of their lines. -/
theorem exists_rowReply {lines : List String} (completes : Completes circuit.inputCount lines)
    (rest : List Line) : ∃ assigned outputs valuation,
      (circuit.withPins held).setInputs (given lines) = .ok assigned ∧
      assigned.outputValues = .ok outputs ∧
      circuit.Solves (given lines) valuation ∧ outputs = circuit.outputs.toList.map valuation ∧
      ∀ scope text log,
        (converse Directory.files scope text log
          (perform (some (circuit.withPins held)) .simulation)
          (lines.map .text ++ rest)).run directory =
        (converse Directory.files scope (text ++ transcript lines) log
          (rowReply assigned (given lines) outputs) rest).run directory := by
  have ready := (Circuit.isReady_of_load loads).1
  obtain ⟨evaluates, valuation, solves, outputs⟩ := Circuit.exists_solves_response
    ready.reachable ready.small ready.isSorted ready.nots completes.length_eq
  refine ⟨circuit.assigned (given lines), circuit.response (given lines), valuation,
    Circuit.setInputs_eq_assigned ready.wellFormed ready.small.le completes.length_eq held,
    evaluates, solves, outputs, fun scope text log => ?_⟩
  have completes : Completes (circuit.withPins held).inputCount lines := completes
  rw [← showSimulation_withPins loads held completes.length_eq]
  exact converse_of_completes directory scope completes text log rest

/-- The lines decide about the result of a simulation. -/
theorem result_eq_iff_reading (lines : List Line) (result : Except Failure Bool) :
    ((process Directory.files (some (circuit.withPins held)) .simulation lines).run
      directory).1.result = result ↔ Reading circuit.inputCount lines result := by
  have decided : ∀ result, Reading circuit.inputCount lines result →
      ((process Directory.files (some (circuit.withPins held)) .simulation lines).run
        directory).1.result = result := by
    intro result reading
    cases reading with
    | completes completes rest =>
      obtain ⟨_, _, _, _, _, _, _, converses⟩ :=
        exists_rowReply loads held directory completes rest
      rw [process, converses, converse_of_finished rfl]
    | @exhausted texts lacks =>
      have lacks : Lacks (circuit.withPins held).inputCount texts := lacks
      exact congrArg (·.1.result) (converse_of_exhausted directory .single lacks "" [])
    | @garbled texts lacks rest =>
      have lacks : Lacks (circuit.withPins held).inputCount texts := lacks
      exact congrArg (·.1.result) (converse_of_garbled directory .single lacks "" [] rest)
  refine ⟨?_, decided result⟩
  rintro rfl
  obtain ⟨result, reading⟩ := exists_reading (Circuit.isReady_of_load loads).1.pins.1 lines
  rwa [decided result reading]

end Loaded

/-- A simulation reads the lines up to the one that gives the last value, and shows the outputs for
the values in the order of their lines. It changes and shows nothing and ends the menu at the end of
the input, or fails at a line that is not text, if one of them comes before. -/
theorem simulation_spec {source : String} {circuit : Circuit}
    (loads : (Lcf.load source).1 = .ok circuit) (held : DeviceId → Bool) (directory : Directory) :
    let loaded := circuit.withPins held
    (∀ line value, pinValue? line = some value ↔
      ∃ before after, (∀ blank ∈ before ++ after, Text.isBlank blank = true) ∧
        line.toList = before ++ (if value then '1' else '0') :: after) ∧
    (∀ lines rest, Completes circuit.inputCount lines → ∃ assigned outputs valuation,
      loaded.setInputs (given lines) = .ok assigned ∧ assigned.outputValues = .ok outputs ∧
      circuit.Solves (given lines) valuation ∧ outputs = circuit.outputs.toList.map valuation ∧
      ∀ scope text log,
        (converse Directory.files scope text log (perform (some loaded) .simulation)
          (lines.map .text ++ rest)).run directory =
        (converse Directory.files scope (text ++ transcript lines) log
          (rowReply assigned (given lines) outputs) rest).run directory) ∧
    (∀ lines, Lacks circuit.inputCount lines → ∀ scope text log,
      (converse Directory.files scope text log (perform (some loaded) .simulation)
        (lines.map .text)).run directory =
      ({ result := .ok false
         text := text ++ transcript lines ++ (Question.pin (given lines)).prompt
         log := log
         circuit := some loaded
         rest := [] }, directory)) ∧
    (∀ lines rest, Lacks circuit.inputCount lines → ∀ scope text log,
      (converse Directory.files scope text log (perform (some loaded) .simulation)
        (lines.map .text ++ .garbled :: rest)).run directory =
      ({ result := .error (.line .invalidText)
         text := text ++ transcript lines ++ (Question.pin (given lines)).prompt
         log := log
         circuit := some loaded
         rest := rest }, directory)) ∧
    ∀ (input : List UInt8) (result : Except Failure Bool),
      ((process Directory.files (some loaded) .simulation (Line.ofInput input)).run
        directory).1.result = result ↔
      Reading circuit.inputCount (Line.ofInput input) result := by
  intro loaded
  refine ⟨fun _ _ => pinValue?_eq_some_iff,
    fun _ rest completes => exists_rowReply loads held directory completes rest,
    fun lines lacks scope text log => ?_, fun lines rest lacks scope text log => ?_,
    fun input result => result_eq_iff_reading loads held directory (Line.ofInput input) result⟩
  · have lacks : Lacks loaded.inputCount lines := lacks
    exact converse_of_exhausted directory scope lacks text log
  · have lacks : Lacks loaded.inputCount lines := lacks
    exact converse_of_garbled directory scope lacks text log rest

/-- Five lines about two pins, two of which are digits up to white space. The last line is not
needed. -/
theorem reading_of_inhibition :
    let source := "2\n2\n1 -1 2.1 0\n3 -2 0\n"
    let lines := ["2", " 1\r", "", "0"]
    let input := "2\n 1\r\n\n0\n1".toUTF8.toList
    ∃ circuit, (Lcf.load source).1 = .ok circuit ∧
      Line.ofInput input = lines.map .text ++ [.text "1"] ∧
      Completes circuit.inputCount lines ∧ given lines = [true, false] ∧
      transcript lines =
        "Please key in the value of input pin 1: The value of input pin must be 0/1\n" ++
        "Please key in the value of input pin 1: " ++
        "Please key in the value of input pin 2: The value of input pin must be 0/1\n" ++
        "Please key in the value of input pin 2: " ∧
      ((process Directory.files (some (circuit.withPins fun _ => true)) .simulation
        (Line.ofInput input)).run (.flat [])).1.result = .ok true := by
  intro source lines input
  have count : (Lcf.load source).1.map Circuit.inputCount = .ok 2 := by decide +kernel
  have split : Line.ofInput input = lines.map .text ++ [.text "1"] := by decide +kernel
  have values : given lines = [true, false] := by decide +kernel
  have earlier : given lines.dropLast = [true] := by decide +kernel
  cases answer : (Lcf.load source).1 with
  | error error =>
    rw [answer] at count
    cases count
  | ok circuit =>
    rw [answer] at count
    have two : circuit.inputCount = 2 := Except.ok.inj count
    have completes : Completes circuit.inputCount lines := by
      refine ⟨?_, ?_⟩
      · rw [values, two]
        rfl
      · rw [Lacks, earlier, two]
        decide
    obtain ⟨_, _, _, _, decided⟩ :=
      simulation_spec answer (fun _ => true) (Directory.flat [])
    have reading := Reading.completes completes [.text "1"]
    rw [← split] at reading
    exact ⟨circuit, rfl, split, completes, values, by decide +kernel, (decided input _).mpr reading⟩

end Menu

end Combinational
