/-
This file proves that the menu and the command line show the same results.

The menu keeps one circuit, whose pins earlier commands have changed, and the command line loads a
new one for each command. But a circuit that was loaded from a text is the loaded one up to its
pins, whatever has happened since, and neither a report nor a table depends on what the pins held.
-/

import Combinational.Proofs.Arguments
import Combinational.Proofs.Execution
import Combinational.Proofs.Sessions

namespace Combinational

open Relation

namespace CommandLine

/-! ### Digits as arguments -/

theorem head?_digitsOf_ne (values : List Bool) : (digitsOf values).head? ≠ some '-' := by
  cases values with
  | nil => simp [digitsOf]
  | cons value values => cases value <;> simp [digitsOf]

/-- Digits as the values of a simulation are not mistaken for a parameter. -/
theorem readArguments_digitsOf {file : String} (named : file.isEmpty = false)
    (plain : file.toList.head? ≠ some '-') (values : List Bool) :
    readArguments ["simulate", file, "-i", String.ofList (digitsOf values)] =
      .ok (.simulate file (.digits (String.ofList (digitsOf values))) 1) := by
  refine readArguments_simulate named plain ?_
  rw [String.toList_ofList]
  exact head?_digitsOf_ne values

end CommandLine

namespace Menu

/-! ### The loaded circuit -/

/-- What is loaded after some events comes from a text: the last path that was read names a file
with this text. -/
def ComesFrom (directory : Directory) (events : List Event) (text : String) : Prop :=
  ∃ path, (events.filterMap Event.path?).getLast? = some path ∧ directory.read path = .ok text

theorem ComesFrom.exists_circuitAfter {directory : Directory} {events : List Event}
    {text : String} (comes : ComesFrom directory events text) {circuit : Circuit}
    (loads : (Lcf.load text).1 = .ok circuit) :
    ∃ values, circuitAfter directory events = some (circuit.assigned values) := by
  obtain ⟨path, last, reads⟩ := comes
  have loaded : (directory.load path).1 = .ok circuit := by
    rw [Directory.load, reads]
    exact loads
  exact ⟨_, circuitAfter_eq_some_iff.mpr ⟨path, circuit, last, loaded, rfl⟩⟩

/-! ### Replies -/

/-- A simulation that gets values for all pins shows a report on them after the last question, and
the table is shown at once. -/
structure Shows (directory : Directory) (scope : Scope) (circuit : Option Circuit) (pins : Nat)
    (report : List Bool → String) (table : String) : Prop where
  simulation : ∀ lines values rest, pinValues pins lines = (.ok values, rest) →
    ∃ last line reply, Reaches directory scope ⟨perform circuit .simulation, lines⟩
        ⟨last, .text line :: rest⟩ ∧
      last.turn = .ask (.pin values.dropLast) ∧
      Answers directory scope ⟨last, .text line :: rest⟩ ⟨reply, rest⟩ ∧
      reply.text = report values ∧ reply.turn = .done true
  truthTable : (perform circuit .truthTable).text = table ∧
    (perform circuit .truthTable).turn = .done true

theorem ComesFrom.shows {directory : Directory} {events : List Event} {text : String}
    (comes : ComesFrom directory events text) {circuit : Circuit}
    (loads : (Lcf.load text).1 = .ok circuit) (scope : Scope) :
    Shows directory scope (circuitAfter directory events) circuit.inputCount
      (fun values => "Simulation Result:\n" ++ circuit.report values ++ "\n")
      ("Truth table:\n" ++ circuit.fullTable.text ++ "\n") := by
  obtain ⟨held, loaded⟩ := comes.exists_circuitAfter loads
  have ready := isReady_of_circuitAfter loaded
  refine ⟨fun lines values rest answered => ?_, ?_⟩
  · obtain ⟨last, line, asks, reaches, answers⟩ :=
      reaches_of_simulation loaded scope rfl answered
    rw [showSimulation_eq ready (length_of_pinValues (congrArg Prod.fst answered)),
      circuit.report_assigned] at answers
    rw [loaded]
    exact ⟨last, line, _, reaches, asks.turn_eq, answers, rfl, rfl⟩
  · rw [loaded]
    show (showTruthTable (circuit.assigned held)).text = _ ∧
      (showTruthTable (circuit.assigned held)).turn = _
    rw [showTruthTable_eq ready, circuit.fullTable_assigned]
    exact ⟨rfl, rfl⟩

section Shows

variable {directory : Directory} {circuit : Option Circuit} {pins : Nat}
  {report : List Bool → String} {table : String}
  (shows : Shows directory .single circuit pins report table)

include shows

/-- After the last question, a simulation writes the report. -/
theorem Shows.exists_simulation {lines rest : List Line} {values : List Bool}
    (answered : pinValues pins lines = (.ok values, rest)) : ∃ outcome dialogue,
      (process Directory.files circuit .simulation lines).run directory = (outcome, directory) ∧
      outcome.result = .ok true ∧ outcome.rest = rest ∧
      outcome.text = dialogue ++ (Question.pin values.dropLast).prompt ++ report values := by
  obtain ⟨last, line, reply, reaches, asks, answers, report_eq, turn_eq⟩ :=
    shows.simulation lines values rest answered
  obtain ⟨shown, records, converses⟩ := exists_converse_of_reaches reaches "" []
  cases answers with
  | @answer _ question next =>
    obtain rfl : Question.pin values.dropLast = question := by
      rw [asks] at next
      exact Sum.inr.inj next
    have finished : (replyTo directory last.circuit line
        (.pin values.dropLast)).turn.next .single = .inl (.ok true) := by
      rw [turn_eq]
      rfl
    have process_eq := converses.trans (converse_answer next shown records line rest)
    rw [converse_of_finished finished] at process_eq
    exact ⟨_, shown ++ last.text, process_eq, rfl, rfl, by rw [report_eq]⟩

theorem Shows.exists_truthTable (lines : List Line) : ∃ outcome,
    (process Directory.files circuit .truthTable lines).run directory = (outcome, directory) ∧
    outcome.result = .ok true ∧ outcome.rest = lines ∧ outcome.text = table := by
  obtain ⟨table_eq, turn_eq⟩ := shows.truthTable
  have finished : (perform circuit .truthTable).turn.next .single = .inl (.ok true) := by
    rw [turn_eq]
    rfl
  exact ⟨_, converse_of_finished finished "" [] lines, rfl, rfl,
    by rw [table_eq, String.empty_append]⟩

end Shows

end Menu

/-! ### Main statement -/

open CommandLine Menu in
/-- A text that is accepted has a report for all values of the pins and a table. The command line
shows them for every file with this text. The menu shows them after every history and inside every
session in which the loaded circuit comes from this text, whatever has happened to its pins
since. -/
theorem front_ends_agree {text : String} {circuit : Circuit}
    (loads : (Lcf.load text).1 = .ok circuit) :
    ∃ (report : List Bool → String) (table : String),
      (∀ (m : Type → Type) [Monad m] [LawfulMonad m] (bar : Bar m)
        (generator : Random.Generator) directory file lines, directory.read file = .ok text →
        (∀ values seed, values.length = circuit.inputCount →
          ((CommandLine.Command.simulate file (.digits (String.ofList (digitsOf values))) seed).run
            (.inDirectory bar generator) lines).run directory =
            pure (.ofText (Lcf.load text).2 (.ok (report values)), directory)) ∧
        ((CommandLine.Command.truthTable file none).run (.inDirectory bar generator) lines).run
            directory = pure (.ofText (Lcf.load text).2 (.ok table), directory)) ∧
      (∀ directory history, ComesFrom directory (historyEvents directory history) text →
        (∀ lines values rest, pinValues circuit.inputCount lines = (.ok values, rest) →
          ∃ outcome dialogue, (process Directory.files (historyCircuit directory history)
              .simulation lines).run directory = (outcome, directory) ∧
            outcome.result = .ok true ∧ outcome.rest = rest ∧
            outcome.text = dialogue ++ (Question.pin values.dropLast).prompt ++ report values) ∧
        ∀ lines, ∃ outcome, (process Directory.files (historyCircuit directory history)
            .truthTable lines).run directory = (outcome, directory) ∧
          outcome.result = .ok true ∧ outcome.rest = lines ∧ outcome.text = table) ∧
      ∀ directory past point, Reaches directory .repeated ⟨welcome, past ++ point.lines⟩ point →
        ComesFrom directory (sessionEvents directory [] past) text →
        Shows directory .repeated point.reply.circuit circuit.inputCount report table := by
  refine ⟨fun values => "Simulation Result:\n" ++ circuit.report values ++ "\n",
    "Truth table:\n" ++ circuit.fullTable.text ++ "\n",
    fun m _ _ bar generator directory file lines reads => ?_,
    fun directory history comes => ?_, fun directory past point reaches comes => ?_⟩
  · have ready := (Circuit.isReady_of_load loads).1
    have loaded : directory.load file = (.ok circuit, (Lcf.load text).2) := by
      rw [Directory.load, reads, ← loads]
    refine ⟨fun values seed length => ?_, ?_⟩
    · have accepted := inputValues_digitsOf generator values seed
      rw [length] at accepted
      show (showOn (Directory.filesOver m) file _).run directory = _
      rw [run_showOn_of_ok loaded]
      show pure (Outcome.ofText _ (simulateCircuit generator _ seed circuit), directory) = _
      rw [simulateCircuit_eq ready, accepted]
      rfl
    · show (showOn (Directory.filesOver m) file _).run directory = _
      rw [run_showOn_of_ok loaded, showTable_eq ready]
      rfl
  · have shows := comes.shows loads .single
    rw [circuitAfter_historyEvents] at shows
    exact ⟨fun lines values rest answered => shows.exists_simulation answered,
      shows.exists_truthTable⟩
  · obtain ⟨before, split, loaded⟩ := circuit_eq_of_session reaches
    obtain rfl : past = before := List.append_cancel_right split
    rw [loaded]
    exact comes.shows loads .repeated

open CommandLine Menu in
/-- A Not gate, after a simulation that was completed, a table and a simulation that was cut
short. -/
theorem front_ends_agree_negation :
    let text := "1\n1\n3 -1 0\n"
    let directory := Directory.flat [("not.lcf", .text text)]
    let history : List (Menu.Command × List Line) := [(.load, [.text "not.lcf"]),
      (.simulation, [.text "1"]), (.truthTable, []), (.simulation, [.text "2"])]
    ∃ circuit report log outcome dialogue, (Lcf.load text).1 = .ok circuit ∧
      ((CommandLine.Command.simulate "not.lcf" (.digits "0") 1).run
        (.inDirectory Display.bar Random.Xoshiro.generator) []).run directory =
          pure (.ofText log (.ok report), directory) ∧
      (process Directory.files (historyCircuit directory history) .simulation
        [.text "no", .text " 0 "]).run directory = (outcome, directory) ∧
      outcome.text = dialogue ++ "Please key in the value of input pin 1: " ++ report := by
  intro text directory history
  have count : (Lcf.load text).1.map Circuit.inputCount = .ok 1 := by decide +kernel
  have reads : directory.read "not.lcf" = .ok text := by decide +kernel
  have comes : ComesFrom directory (historyEvents directory history) text :=
    ⟨"not.lcf", by decide +kernel, reads⟩
  have answered : pinValues 1 [.text "no", .text " 0 "] = (.ok [false], []) := by decide +kernel
  cases answer : (Lcf.load text).1 with
  | error error =>
    rw [answer] at count
    cases count
  | ok circuit =>
    rw [answer] at count
    have one : circuit.inputCount = 1 := Except.ok.inj count
    obtain ⟨report, _, shown, after, _⟩ := front_ends_agree answer
    rw [one] at shown after
    obtain ⟨outcome, dialogue, processes, _, _, written⟩ :=
      (after directory history comes).1 _ _ _ answered
    exact ⟨circuit, report [false], _, outcome, dialogue, rfl,
      (shown (StateM Display) Display.bar Random.Xoshiro.generator directory "not.lcf" []
        reads).1 [false] 1 rfl, processes, written⟩

end Combinational
