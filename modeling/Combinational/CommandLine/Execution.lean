/-
This file performs the commands of the command line.

A command reads at most one file and creates at most one. It reads before it
creates. The table of all assignments is written to a file that was created
before, row by row, and the text of a random circuit as a whole.
-/

import Combinational.Circuit.Netlist
import Combinational.Circuit.Random
import Combinational.Circuit.Statistics
import Combinational.CommandLine.Command
import Combinational.CommandLine.Environment
import Combinational.CommandLine.TableWriter
import Combinational.Menu.Session

namespace Combinational.CommandLine

/-! ### Commands on a circuit -/

/-- The size of a circuit and its statistics, and its devices if asked for. -/
def showCircuit (netlist : Bool) (circuit : Circuit) : Except Misuse String := do
  let statistics ← circuit.statistics
  return circuit.summary ++ "\n" ++ statistics.text ++ "\n" ++
    (if netlist then circuit.netlist ++ "\n" else "")

/-- The values that a text gives, one digit per character. -/
def readDigits : List Char → Except Failure (List Bool)
  | [] => .ok []
  | '0' :: others => (readDigits others).map (false :: ·)
  | '1' :: others => (readDigits others).map (true :: ·)
  | character :: _ => .error (.valueDigit character)

/-- The values to simulate a circuit with. The length of a text of digits is measured in bytes
before its characters are looked at. -/
def inputValues (generator : Random.Generator) (choice : InputChoice) (seed : UInt64)
    (inputs : Nat) : Except Failure (List Bool) :=
  match choice with
  | .digits text =>
    if text.utf8ByteSize = inputs then readDigits text.toList
    else .error (.valueCount inputs text.utf8ByteSize)
  | .random => .ok (generator.bits (generator.ofSeed seed) inputs)
  | .zeros => .ok (List.replicate inputs false)

/-- The outputs for one assignment. -/
def simulateCircuit (generator : Random.Generator) (choice : InputChoice) (seed : UInt64)
    (circuit : Circuit) : Except Failure String := do
  let values ← inputValues generator choice seed circuit.inputCount
  let table ← (circuit.setInputs values >>= Circuit.evaluateOnce).mapError .misuse
  return "Simulation Result:\n" ++ table ++ "\n"

/-- The outputs for all assignments. -/
def showTable (circuit : Circuit) : Except Misuse String := do
  let table ← circuit.evaluateAll.1
  return "Truth table:\n" ++ table ++ "\n"

/-- The function of an output, numbered from one. -/
def functionText (table : LookupTable) (number : Nat) : String :=
  "Output " ++ number.repr ++ ": 0x" ++ table.hex ++ "\n"

/-- A group of outputs with the same function. -/
def groupText (group : List Nat) : String :=
  "Equivalent outputs: " ++ String.intercalate ", " (group.map Nat.repr) ++ "\n"

/-- The functions of the outputs, and which of them are the same. -/
def showFunctions (circuit : Circuit) : Except Misuse String := do
  let tables ← circuit.outputFunctions.1
  return String.join ((tables.zipIdx 1).map fun (table, number) => functionText table number) ++
    String.join ((LookupTable.equivalent tables).map groupText)

/-! ### Commands -/

section

variable {m : Type → Type} [Monad m]

/-- Loads a circuit and answers with it, or fails. -/
def onCircuit (files : Files m) (path : String)
    (use : Circuit → List Log.Record → m Outcome) : m Outcome := do
  match ← Lcf.loadFile files path with
  | (.ok circuit, log) => use circuit log
  | (.error error, log) => return .ofText log (.error (.load path error))

/-- Loads a circuit and shows a text about it. -/
def showOn (files : Files m) (path : String) (use : Circuit → Except Failure String) :
    m Outcome :=
  onCircuit files path fun circuit log => return .ofText log (use circuit)

/-- The record of a table that was written to a file. -/
def writtenRecord (output : String) : Log.Record where
  level := .info
  message := "Truth table written to " ++ output

/-- Makes a file hold the table of all assignments. -/
def writeTable (files : Files m) (bar : Bar m) (output : String) (circuit : Circuit) :
    ExceptT Failure m Unit := do
  let file ← ofSystem (files.create output)
  let _ ← writeTruthTable (files.write file) bar circuit
  ofSystem (files.flush file)

/-- The outcome of writing a table, which leaves a record if it succeeds. -/
def writtenOutcome (output : String) (log : List Log.Record) : Except Failure Unit → Outcome
  | .ok () => .ofText (log ++ [writtenRecord output]) (.ok "")
  | .error failure => .ofText log (.error failure)

/-- Writes the table of all assignments to a file. -/
def tabulate (environment : Environment m) (output : String) (circuit : Circuit)
    (log : List Log.Record) : m Outcome := do
  let result ← (writeTable environment.files environment.bar output circuit).run
  return writtenOutcome output log result

/-- Makes a file hold the description of a random circuit. -/
def generateCircuit (environment : Environment m) (inputs gates : Nat) (seed : UInt64)
    (output : String) : ExceptT Failure m String := do
  if inputs = 0 ∨ maxInputs < inputs then throw .inputRange
  if gates = 0 ∨ maxGates < gates then throw .gateRange
  let circuit ← ofCircuit (Circuit.random environment.generator inputs gates seed)
  ofSystem (Lcf.writeFile environment.files output circuit)
  return circuit.summary ++ "\n"

/-- Why a session with the menu failed. -/
def sessionFailure : Menu.Failure → Failure
  | .line cause => .file cause
  | .misuse cause => .misuse cause

/-- A session with the menu. -/
def runMenu (files : Files m) (lines : List Line) : m Outcome := do
  let session ← Menu.run files lines
  return {
    result := (session.result.map fun _ => ()).mapError sessionFailure
    text := session.text
    log := session.log }

/-- Performs a command, with the lines of the input at hand. -/
def Command.run (environment : Environment m) (lines : List Line) : Command → m Outcome
  | menu => runMenu environment.files lines
  | .show file netlist => showOn environment.files file fun circuit =>
      (showCircuit netlist circuit).mapError .misuse
  | simulate file choice seed =>
      showOn environment.files file (simulateCircuit environment.generator choice seed)
  | truthTable file none => showOn environment.files file fun circuit =>
      (showTable circuit).mapError .misuse
  | truthTable file (some output) => onCircuit environment.files file (tabulate environment output)
  | functions file => showOn environment.files file fun circuit =>
      (showFunctions circuit).mapError .misuse
  | generate inputs gates seed output =>
      return .ofText [] (← (generateCircuit environment inputs gates seed output).run)

end

end Combinational.CommandLine
