/-
This file builds circuits from their descriptions.

The checks follow an order: the form of the text, the number of input pins, the
number of gates, the number of statements, the sources of the statements from
first to last, the existence of an output, and last the absence of loops. The
first that fails is reported.

Loading also leaves records in the log: the counts once they are accepted, a
warning for each Not gate with more sources than it uses, as far as the sources
were found to exist, and the size of the circuit that was built.
-/

import Combinational.Circuit.Assembly
import Combinational.Lcf.Reading
import Combinational.Log

namespace Combinational.Lcf

/-! ### Checks -/

/-- Refuses counts out of bounds, and a number of statements other than that of the gates. -/
def checkCounts (description : Description) : Except LoadError Unit :=
  if description.inputs = 0 ∨ maxInputs < description.inputs then
    .error (.inputCount description.inputs)
  else if description.gates = 0 ∨ maxGates < description.gates then
    .error (.gateCount description.gates)
  else if description.statements.length ≠ description.gates then
    .error (.gateLines description.gates description.statements.length)
  else
    .ok ()

/-- The report on a source that does not exist. -/
def missingSource (gate : Nat) : Source → LoadError
  | .input number => .inputReference gate number
  | .gate number => .gateReference gate number

/-- Refuses a statement with a source that does not exist. -/
def checkSources (description : Description) (gate : Nat) (statement : Statement) :
    Except LoadError Unit :=
  match statement.sources.find? fun source =>
      !source.isDefined description.inputs description.gates with
  | some source => .error (missingSource gate source)
  | none => .ok ()

/-! ### Records -/

/-- The record of accepted counts. -/
def countsRecord (description : Description) : Log.Record where
  level := .debug
  message := "Reading circuit with " ++ description.inputs.repr ++ " input pins and " ++
    description.gates.repr ++ " gates"

/-- The warning about a Not gate with more than one source. -/
def unusedSourcesRecord? (gate : Nat) (statement : Statement) : Option Log.Record :=
  if statement.kind = .not ∧ 1 < statement.sources.length then
    some {
      level := .warn
      message := "Gate " ++ gate.repr ++ " is a Not gate with " ++
        statement.sources.length.repr ++ " inputs: only the first one is used" }
  else
    none

/-- The record of a circuit that was built. -/
def builtRecord (circuit : Circuit) : Log.Record where
  level := .info
  message := "Loaded " ++ circuit.summary

/-! ### Loading -/

/-- Checks the sources of some statements, the first of which defines the gate with a number, and
warns about unused ones up to the first statement that is refused. -/
def checkStatements (description : Description) :
    (gate : Nat) → List Statement → Except LoadError Unit × List Log.Record
  | _, [] => (.ok (), [])
  | gate, statement :: others =>
    match checkSources description gate statement with
    | .error error => (.error error, [])
    | .ok () =>
      let (result, records) := checkStatements description (gate + 1) others
      (result, (unusedSourcesRecord? gate statement).toList ++ records)

/-- The circuit that a description with accepted counts denotes. -/
def buildCounted (description : Description) : Except LoadError Circuit × List Log.Record :=
  match checkStatements description 1 description.statements with
  | (.error error, records) => (.error error, records)
  | (.ok (), records) =>
    match Circuit.assemble description.inputs description.statements with
    | .error error => (.error error, records)
    | .ok circuit => (.ok circuit, records ++ [builtRecord circuit])

/-- The circuit that a description denotes. -/
def build (description : Description) : Except LoadError Circuit × List Log.Record :=
  match checkCounts description with
  | .error error => (.error error, [])
  | .ok () =>
    let (result, records) := buildCounted description
    (result, countsRecord description :: records)

/-- The circuit that a text describes, and the records of reading it. -/
def load (text : String) : Except LoadError Circuit × List Log.Record :=
  match read? text with
  | some description => build description
  | none => (.error .malformed, [])

end Combinational.Lcf
