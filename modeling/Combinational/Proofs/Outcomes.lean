/-
This file proves how every command of the command line ends, and what it leaves of the files.

A command that uses a circuit has loaded it, so the circuit is ready and nothing is misused. A
random circuit is asked for within its limits only, so it can be drawn. A file is created when all
that may be refused has been accepted, and from then on nothing but the terminal can keep its whole
text from being written. So a command that fails while the bar can be shown has created nothing.
Whatever the terminal does, no other file changes.
-/

import Combinational.Proofs.Acceptance
import Combinational.Proofs.Execution
import Combinational.Proofs.Sessions
import Combinational.Proofs.Streaming

namespace Combinational

/-! ### Files that were created -/

/-- A directory in which a file holds a text, and the other files are those of another one. -/
def Directory.IsUpdate (before : Directory) (name text : String) (after : Directory) : Prop :=
  after.find? name = some (.text text) ∧
    ∀ other, other ≠ name → after.find? other = before.find? other

theorem Directory.isUpdate_write (directory : Directory) (name text : String) :
    directory.IsUpdate name text (directory.write name text) :=
  ⟨find?_write_self directory name text, fun _ => find?_write_other directory text⟩

namespace CommandLine

/-! ### Success -/

/-- Nothing stands in the way of a command: the file that it reads describes a circuit, the file for
its output can be created, and its values and counts are in order. The menu needs text wherever it
asks something. -/
def Permits (generator : Random.Generator) (directory : Directory) (lines : List Line) :
    Command → Prop
  | .menu => ∀ reply question rest,
      Menu.Reaches directory .repeated ⟨Menu.welcome, lines⟩ ⟨reply, .garbled :: rest⟩ →
        reply.turn.next .repeated ≠ .inr question
  | .show file _ | .functions file | .truthTable file none =>
      ∃ circuit, (directory.load file).1 = .ok circuit
  | .simulate file choice seed => ∃ circuit values,
      (directory.load file).1 = .ok circuit ∧
        inputValues generator choice seed circuit.inputCount = .ok values
  | .truthTable file (some output) =>
      (∃ circuit, (directory.load file).1 = .ok circuit) ∧
        ∃ name, directory.locate .creating output = .ok name
  | .generate inputs gates _ output =>
      (1 ≤ inputs ∧ inputs ≤ maxInputs) ∧ (1 ≤ gates ∧ gates ≤ maxGates) ∧
        ∃ name, directory.locate .creating output = .ok name

/-- What a command that succeeds leaves of a directory: the file that it was given for its output
holds the table of all assignments and a line feed, or the description of the random circuit, and
nothing else has changed. -/
def Leaves (generator : Random.Generator) (directory : Directory) : Command → Directory → Prop
  | .truthTable file (some output), after => ∃ circuit log table name,
      directory.load file = (.ok circuit, log) ∧ circuit.evaluateAll.1 = .ok table ∧
      directory.locate .creating output = .ok name ∧
      directory.IsUpdate name (table ++ "\n") after
  | .generate inputs gates seed output, after => ∃ circuit name,
      Circuit.random generator inputs gates seed = .ok circuit ∧
      directory.locate .creating output = .ok name ∧
      directory.IsUpdate name (Lcf.write circuit) after
  | .menu, after | .show .., after | .simulate .., after | .truthTable _ none, after
  | .functions _, after => after = directory

/-! ### Changes -/

/-- The path that a command is given for its output. -/
def Command.output? : Command → Option String
  | truthTable _ output => output
  | generate _ _ _ output => some output
  | menu | .show .. | simulate .. | functions _ => none

/-- No file has changed but the one for the output. -/
def ChangesOutputOnly (directory : Directory) (command : Command) (after : Directory) : Prop :=
  ∀ name, after.find? name ≠ directory.find? name →
    ∃ output, command.output? = some output ∧ directory.locate .creating output = .ok name

section Changes

variable {directory after : Directory} {command : Command}

theorem changesOutputOnly_self (directory : Directory) (command : Command) :
    ChangesOutputOnly directory command directory :=
  fun _ differs => absurd rfl differs

theorem changesOutputOnly_of_isUpdate {output name text : String}
    (given : command.output? = some output)
    (located : directory.locate .creating output = .ok name)
    (update : directory.IsUpdate name text after) : ChangesOutputOnly directory command after := by
  intro other differs
  by_cases same : other = name
  · exact ⟨output, given, same ▸ located⟩
  · exact absurd (update.2 other same) differs

theorem Leaves.changesOutputOnly {generator : Random.Generator}
    (leaves : Leaves generator directory command after) :
    ChangesOutputOnly directory command after := by
  cases command with
  | menu | «show» | simulate | functions =>
    obtain rfl : after = directory := leaves
    exact changesOutputOnly_self after _
  | truthTable file output =>
    cases output with
    | none =>
      obtain rfl : after = directory := leaves
      exact changesOutputOnly_self after _
    | some output =>
      obtain ⟨_, _, _, _, _, _, located, update⟩ := leaves
      exact changesOutputOnly_of_isUpdate rfl located update
  | generate =>
    obtain ⟨_, _, _, located, update⟩ := leaves
    exact changesOutputOnly_of_isUpdate rfl located update

end Changes

/-! ### Ends -/

/-- A command ended without misuse, and changed at most the file for its output. If it succeeded,
nothing had stood in its way, and all that it changed is what it was to leave. Unless the terminal
failed, it succeeded if nothing stood in its way, and changed nothing otherwise. -/
structure EndsWell (shows : Prop) (generator : Random.Generator) (directory : Directory)
    (lines : List Line) (command : Command) (ended : Outcome × Directory) : Prop where
  noMisuse : ∀ misuse, ended.1.result ≠ .error (.misuse misuse)
  changes : ChangesOutputOnly directory command ended.2
  permitted : ended.1.result = .ok () → Permits generator directory lines command
  leaves : ended.1.result = .ok () → Leaves generator directory command ended.2
  succeeds : shows → Permits generator directory lines command → ended.1.result = .ok ()
  keeps : shows → ∀ failure, ended.1.result = .error failure → ended.2 = directory

/-- A command ends well whatever the terminal shows before. -/
def RunsWell {Terminal : Type} (bar : Bar (StateM Terminal)) (generator : Random.Generator)
    (directory : Directory) (lines : List Line) (command : Command)
    (run : StateM Terminal (Outcome × Directory)) : Prop :=
  ∀ terminal,
    EndsWell bar.IsReliable generator directory lines command (run.run terminal).1

variable {Terminal : Type} {bar : Bar (StateM Terminal)} {generator : Random.Generator}
  {directory : Directory} {lines : List Line} {command : Command}

theorem EndsWell.of_error {shows : Prop} {failure : Failure}
    (refused : ¬ Permits generator directory lines command)
    (proper : ∀ misuse, failure ≠ .misuse misuse) {text : String} {log : List Log.Record} :
    EndsWell shows generator directory lines command
      ({ result := .error failure, text, log }, directory) where
  noMisuse misuse same := proper misuse (Except.error.inj same)
  changes := changesOutputOnly_self directory command
  permitted same := by cases same
  leaves same := by cases same
  succeeds _ permitted := absurd permitted refused
  keeps _ _ _ := rfl

theorem EndsWell.of_ok {shows : Prop} {after : Directory}
    (permitted : Permits generator directory lines command)
    (leaves : Leaves generator directory command after) {text : String} {log : List Log.Record} :
    EndsWell shows generator directory lines command
      ({ result := .ok (), text, log }, after) where
  noMisuse _ same := by cases same
  changes := leaves.changesOutputOnly
  permitted _ := permitted
  leaves _ := leaves
  succeeds _ _ := rfl
  keeps _ _ same := by cases same

/-- Where the terminal failed, the file for the output may hold a part of the table. -/
theorem EndsWell.of_unreliable {shows : Prop} {after : Directory} (fails : ¬ shows)
    (changes : ChangesOutputOnly directory command after) (cause : FileError)
    {text : String} {log : List Log.Record} :
    EndsWell shows generator directory lines command
      ({ result := .error (.file cause), text, log }, after) where
  noMisuse misuse same := Failure.noConfusion (Except.error.inj same)
  changes := changes
  permitted same := by cases same
  leaves same := by cases same
  succeeds shown := absurd shown fails
  keeps shown := absurd shown fails

/-- A command that does not use the bar. -/
theorem EndsWell.runsWell {ended : Outcome × Directory}
    (ends : EndsWell bar.IsReliable generator directory lines command ended) :
    RunsWell bar generator directory lines command (pure ended) :=
  fun _ => ends

/-! ### Commands on a circuit -/

section Loaded

variable {file : String}

/-- A command on a file runs well if it does so with each circuit that is loaded. -/
theorem runsWell_onCircuit
    {use : Circuit → List Log.Record → StateT Directory (StateM Terminal) Outcome}
    (needed : Permits generator directory lines command →
      ∃ circuit, (directory.load file).1 = .ok circuit)
    (uses : ∀ circuit log, directory.load file = (.ok circuit, log) → circuit.IsReady →
      RunsWell bar generator directory lines command ((use circuit log).run directory)) :
    RunsWell bar generator directory lines command
      ((onCircuit (Directory.filesOver (StateM Terminal)) file use).run directory) := by
  cases loads : directory.load file with
  | mk loaded log =>
    cases loaded with
    | error error =>
      rw [run_onCircuit_of_error loads]
      refine .runsWell (.of_error (fun permitted => ?_) fun _ same => Failure.noConfusion same)
      obtain ⟨circuit, succeeds⟩ := needed permitted
      rw [loads] at succeeds
      cases succeeds
    | ok circuit =>
      rw [run_onCircuit_of_ok loads]
      exact uses circuit log loads
        (Menu.isReady_of_directory_load (congrArg Prod.fst loads)).1

/-- A command that shows a text about every circuit that is loaded runs well. -/
theorem runsWell_showOn {use : Circuit → Except Failure String}
    (needed : Permits generator directory lines command ↔
      ∃ circuit, (directory.load file).1 = .ok circuit)
    (leaves : Leaves generator directory command directory)
    (shows : ∀ circuit : Circuit, circuit.IsReady → ∃ text, use circuit = .ok text) :
    RunsWell bar generator directory lines command
      ((showOn (Directory.filesOver (StateM Terminal)) file use).run directory) := by
  refine runsWell_onCircuit needed.mp fun circuit log loads ready => ?_
  obtain ⟨text, answer⟩ := shows circuit ready
  rw [answer]
  exact .runsWell (.of_ok (needed.mpr ⟨circuit, congrArg Prod.fst loads⟩) leaves)

/-- A simulation fails for its values only. -/
theorem runsWell_simulate (choice : InputChoice) (seed : UInt64) :
    RunsWell bar generator directory lines (.simulate file choice seed)
      ((showOn (Directory.filesOver (StateM Terminal)) file
        (simulateCircuit generator choice seed)).run directory) := by
  have needed : Permits generator directory lines (.simulate file choice seed) →
      ∃ circuit, (directory.load file).1 = .ok circuit :=
    fun ⟨circuit, _, loads, _⟩ => ⟨circuit, loads⟩
  refine runsWell_onCircuit needed fun circuit log loads ready => ?_
  rw [simulateCircuit_eq ready]
  cases accepted : inputValues generator choice seed circuit.inputCount with
  | ok values =>
    have permitted : Permits generator directory lines (.simulate file choice seed) :=
      ⟨circuit, values, congrArg Prod.fst loads, accepted⟩
    exact .runsWell (.of_ok permitted rfl)
  | error failure =>
    refine .runsWell (.of_error ?_ fun misuse same => ?_)
    · rintro ⟨other, values, reloads, given⟩
      rw [loads] at reloads
      obtain rfl := Except.ok.inj reloads
      rw [accepted] at given
      cases given
    · rw [same] at accepted
      exact inputValues_ne_misuse choice seed circuit.inputCount misuse accepted

end Loaded

/-! ### Commands that create a file -/

/-- Once the file is created, the whole table is written to it, unless the terminal fails. -/
theorem completes_writeTable {output name : String} {circuit : Circuit} (ready : circuit.IsReady)
    (located : directory.locate .creating output = .ok name) :
    Completes (Excuses bar (directory.write name))
      (writeTable (Directory.filesOver (StateM Terminal)) (bar.hoist StateT.lift) output circuit)
      directory () (directory.write name (circuit.fullTable.text ++ "\n")) := by
  have creates : Completes (fun _ _ => False)
      ((Directory.filesOver (StateM Terminal)).create output) directory name
      (directory.write name "") := by
    refine completes_of_run ?_
    rw [Directory.run_create, Directory.create, located]
  have flushes (after : Directory) : Completes (fun _ _ => False)
      ((Directory.filesOver (StateM Terminal)).flush name) after () after :=
    completes_of_run (Directory.run_flush after name)
  have writes := completes_writeTruthTable (directory.appends_write Terminal name) bar
    ready.evaluateAll_eq ""
  rw [String.empty_append] at writes
  refine (creates.adapt fun _ _ => False.elim).bind (writes.bind ?_)
  exact (flushes _).adapt fun _ _ => False.elim

theorem run_writeTable_of_error {output : String} {circuit : Circuit} {error : FileError}
    (refused : directory.locate .creating output = .error error) :
    (writeTable (Directory.filesOver (StateM Terminal)) (bar.hoist StateT.lift) output
      circuit).run.run directory = pure (.error (.file error), directory) := by
  have fails : directory.create output = (.error error, directory) := by
    rw [Directory.create, refused]
  rw [writeTable, ExceptT.run_bind, StateT.run_bind, run_ofSystem, StateT.run_map,
    Directory.run_create, fails]
  rfl

theorem run_tabulate {output : String} {circuit : Circuit} {terminal shown : Terminal}
    {result : Except Failure Unit} {after : Directory}
    (run : ((writeTable (Directory.filesOver (StateM Terminal)) (bar.hoist StateT.lift) output
      circuit).run.run directory).run terminal = ((result, after), shown))
    (log : List Log.Record) :
    ((tabulate (.inDirectory bar generator) output circuit log).run directory).run terminal =
      ((writtenOutcome output log result, after), shown) := by
  rw [tabulate, StateT.run_bind, StateT.run_bind, Environment.inDirectory, run]
  rfl

/-- A table that is written is the shown one, with a line feed, in the file that was named. -/
theorem runsWell_tabulate {file output : String} {circuit : Circuit} {log : List Log.Record}
    (loads : directory.load file = (.ok circuit, log)) (ready : circuit.IsReady) :
    RunsWell bar generator directory lines (.truthTable file (some output))
      ((tabulate (.inDirectory bar generator) output circuit log).run directory) := by
  intro terminal
  cases located : directory.locate .creating output with
  | error error =>
    rw [run_tabulate (congrArg (·.run terminal) (run_writeTable_of_error located))]
    refine .of_error ?_ fun _ same => Failure.noConfusion same
    rintro ⟨_, name, other⟩
    rw [located] at other
    cases other
  | ok name =>
    obtain ⟨shown, run⟩ | ⟨_, _, shown, run, unreliable, ⟨cause, rfl⟩, written, rfl⟩ :=
      completes_writeTable ready located terminal
    · rw [run_tabulate run]
      have leaves : Leaves generator directory (.truthTable file (some output))
          (directory.write name (circuit.fullTable.text ++ "\n")) :=
        ⟨circuit, log, _, name, loads, congrArg Prod.fst ready.evaluateAll_eq, located,
          directory.isUpdate_write name _⟩
      have permitted : Permits generator directory lines (.truthTable file (some output)) :=
        ⟨⟨circuit, congrArg Prod.fst loads⟩, name, located⟩
      exact .of_ok permitted leaves
    · rw [run_tabulate run]
      have changes : ChangesOutputOnly directory (.truthTable file (some output))
          (directory.write name written) :=
        changesOutputOnly_of_isUpdate rfl located (directory.isUpdate_write name written)
      exact .of_unreliable unreliable changes cause

/-- A random circuit is asked for within its limits only, so it can be drawn. -/
theorem runsWell_generate (reliable : generator.below.IsReliable) (inputs gates : Nat)
    (seed : UInt64) (output : String) :
    RunsWell bar generator directory lines (.generate inputs gates seed output)
      (((Command.generate inputs gates seed output).run (.inDirectory bar generator) lines).run
        directory) := by
  by_cases pins : inputs = 0 ∨ maxInputs < inputs
  · have run : ((Command.generate inputs gates seed output).run (.inDirectory bar generator)
        lines).run directory = pure (.ofText [] (.error .inputRange), directory) := by
      rw [Command.run, generateCircuit, if_pos pins]
      rfl
    rw [run]
    refine .runsWell (.of_error ?_ fun _ same => Failure.noConfusion same)
    rintro ⟨someInputs, _⟩
    omega
  by_cases count : gates = 0 ∨ maxGates < gates
  · have run : ((Command.generate inputs gates seed output).run (.inDirectory bar generator)
        lines).run directory = pure (.ofText [] (.error .gateRange), directory) := by
      rw [Command.run, generateCircuit, if_neg pins, if_pos count]
      rfl
    rw [run]
    refine .runsWell (.of_error ?_ fun _ same => Failure.noConfusion same)
    rintro ⟨_, someGates, _⟩
    omega
  have someInputs : 1 ≤ inputs ∧ inputs ≤ maxInputs := by omega
  have someGates : 1 ≤ gates ∧ gates ≤ maxGates := by omega
  have small : inputs + gates < UInt32.size :=
    (Nat.add_le_add someInputs.2 someGates.2).trans_lt (by decide)
  obtain ⟨circuit, draws⟩ := Circuit.exists_random reliable someInputs.1 someGates.1 small seed
  cases located : directory.locate .creating output with
  | error error =>
    rw [run_generate_of_error someInputs someGates draws bar lines located]
    refine .runsWell (.of_error ?_ fun _ same => Failure.noConfusion same)
    rintro ⟨_, _, name, other⟩
    rw [located] at other
    cases other
  | ok name =>
    rw [run_generate someInputs someGates draws bar lines located]
    have leaves : Leaves generator directory (.generate inputs gates seed output)
        (directory.write name (Lcf.write circuit)) :=
      ⟨circuit, name, draws, located, directory.isUpdate_write name _⟩
    have permitted : Permits generator directory lines (.generate inputs gates seed output) :=
      ⟨someInputs, someGates, name, located⟩
    exact .runsWell (.of_ok permitted leaves)

/-! ### The menu -/

/-- A session ends, and it fails exactly at a line that is not text where an answer is needed. -/
theorem exists_session (generator : Random.Generator) (directory : Directory)
    (lines : List Line) : ∃ session,
    (Menu.run Directory.files lines).run directory = (session, directory) ∧
      (session.result = .ok false ∧ Permits generator directory lines .menu ∨
        session.result = .error (.line .invalidText) ∧
          ¬ Permits generator directory lines .menu) := by
  obtain ⟨⟨reply, left⟩, result, rest, reaches, ends, expected, _⟩ :=
    Menu.exists_ends_of_session directory lines
  obtain ⟨session, converses, rfl, _⟩ := Menu.exists_outcome_of_reaches reaches ends "" []
  refine ⟨session, converses, expected.imp (fun stops => ⟨stops, ?_⟩)
    (fun stops => ⟨stops, fun permitted => ?_⟩)⟩
  · intro other question further reached asks
    obtain ⟨interrupted, again, fails, _⟩ :=
      Menu.exists_outcome_of_reaches reached (.garbled asks further) "" []
    obtain rfl : interrupted = session := congrArg Prod.fst (again.symm.trans converses)
    rw [stops] at fails
    cases fails
  · rw [stops] at ends
    cases ends with
    | complete finished => exact Menu.next_ne_line _ _ _ finished
    | garbled asks rest => exact permitted reply _ rest reaches asks

theorem runsWell_runMenu :
    RunsWell bar generator directory lines .menu
      ((runMenu (Directory.filesOver (StateM Terminal)) lines).run directory) := by
  obtain ⟨session, runs, decided⟩ := exists_session generator directory lines
  rw [runMenu, StateT.run_bind, Menu.run, Menu.run_converse, ← Menu.run, runs, pure_bind]
  obtain ⟨stops, permitted⟩ | ⟨stops, refused⟩ := decided
  · rw [stops]
    exact .runsWell (.of_ok permitted rfl)
  · rw [stops]
    exact .runsWell (.of_error refused fun _ same => Failure.noConfusion same)

/-! ### Main statement -/

theorem runsWell (reliable : generator.below.IsReliable) (command : Command) :
    RunsWell bar generator directory lines command
      ((command.run (.inDirectory bar generator) lines).run directory) := by
  cases command with
  | menu => exact runsWell_runMenu
  | «show» file netlist =>
    refine runsWell_showOn Iff.rfl rfl fun circuit ready => ?_
    obtain ⟨text, shows⟩ := exists_showCircuit ready netlist
    exact ⟨text, congrArg (Except.mapError Failure.misuse) shows⟩
  | simulate file choice seed => exact runsWell_simulate choice seed
  | truthTable file output =>
    cases output with
    | none =>
      refine runsWell_showOn Iff.rfl rfl fun circuit ready => ?_
      exact ⟨_, congrArg (Except.mapError Failure.misuse) (showTable_eq ready)⟩
    | some output =>
      exact runsWell_onCircuit (fun permitted => permitted.1) fun _ _ loads ready =>
        runsWell_tabulate loads ready
  | functions file =>
    refine runsWell_showOn Iff.rfl rfl fun circuit ready => ?_
    obtain ⟨text, shows⟩ := exists_showFunctions ready
    exact ⟨text, congrArg (Except.mapError Failure.misuse) shows⟩
  | generate inputs gates seed output => exact runsWell_generate reliable inputs gates seed output

/-- If the bar cannot be shown after the first row, the file that was created holds this row. -/
example :
    let bar := { Display.bar with update := fun _ => .mk (return .error .notFound) }
    let directory := Directory.flat [("not.lcf", .text "1\n1\n3 -1 0\n")]
    let environment := Environment.inDirectory bar Random.Xoshiro.generator
    let command := Command.truthTable "not.lcf" (some "table")
    let ended := (((command.run environment []).run directory).run {}).1
    ended.1.result = .error (.file .notFound) ∧
      ended.2.find? "table" = some (.text "i | o\n1 | 1\n--+--\n0 | 1\n") := by
  decide +kernel

end CommandLine

end Combinational
