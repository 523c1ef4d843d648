/-
This file simulates a circuit, for the values that its input pins hold or for
all assignments.

The simulations over all assignments set the input pins to one pattern after the
other, and differ in the order of the patterns and in what they keep of each
result. They stop at the first pattern that fails, and then leave the pins at
it.
-/

import Combinational.Assignments
import Combinational.Circuit.Evaluation
import Combinational.LookupTable
import Combinational.TruthTable

namespace Combinational

namespace Circuit

/-! ### One assignment -/

/-- The row for the values that the input pins hold. -/
def simulate (circuit : Circuit) : Except Misuse TruthTable := do
  let outputs ← circuit.outputValues
  return {
    inputCount := circuit.inputCount
    outputCount := circuit.outputCount
    rows := #[{ inputs := circuit.inputValues, outputs }] }

/-- The table with the row for the values that the input pins hold. -/
def evaluateOnce (circuit : Circuit) : Except Misuse String :=
  circuit.simulate.map TruthTable.text

/-! ### All assignments -/

/-- Sets the input pins to the patterns of consecutive numbers, and folds the rows. -/
def sweep {Result : Type} (pattern : Nat → List Bool) (keep : Result → Row → Result) :
    (count number : Nat) → Result → Circuit → Except Misuse Result × Circuit
  | 0, _, result, circuit => (.ok result, circuit)
  | count + 1, number, result, circuit =>
    match circuit.setInputs (pattern number) with
    | .error misuse => (.error misuse, circuit)
    | .ok assigned =>
      match assigned.outputValues with
      | .error misuse => (.error misuse, assigned)
      | .ok outputs =>
        sweep pattern keep count (number + 1)
          (keep result { inputs := pattern number, outputs }) assigned

/-- Folds the rows of an enumeration of assignments that has just begun. -/
def sweepAssignments {Result : Type} (circuit : Circuit) (keep : Result → Row → Result)
    (result : Result) : Except Misuse Result × Circuit :=
  match Assignments.all circuit.inputCount with
  | .error misuse => (.error misuse, circuit)
  | .ok assignments =>
    sweep (Pattern.bigEndian assignments.width) keep assignments.remaining assignments.next result
      circuit

/-- The rows of all assignments, in ascending binary order. The input pins keep the last
assignment. -/
def truthTable (circuit : Circuit) : Except Misuse TruthTable × Circuit :=
  let (rows, swept) := circuit.sweepAssignments Array.push #[]
  (rows.map fun rows =>
    { inputCount := circuit.inputCount, outputCount := circuit.outputCount, rows }, swept)

/-- The table of all assignments, as text. -/
def evaluateAll (circuit : Circuit) : Except Misuse String × Circuit :=
  let (table, swept) := circuit.truthTable
  (table.map TruthTable.text, swept)

/-! ### Output functions -/

/-- Appends the values of the output pins of a row, each to the column of its output. -/
def addColumns (columns : List (Array Bool)) (row : Row) : List (Array Bool) :=
  List.zipWith Array.push columns row.outputs

/-- The function of each output. Variable `k` of the tables is the input pin at position `k`. The
input pins get their values back. -/
def outputFunctions (circuit : Circuit) : Except Misuse (List LookupTable) × Circuit :=
  let width := circuit.inputCount
  match sweep (Pattern.littleEndian width) addColumns (Pattern.count width) 0
      (List.replicate circuit.outputCount #[]) circuit with
  | (.error misuse, swept) => (.error misuse, swept)
  | (.ok columns, swept) =>
    match swept.setInputs circuit.inputValues with
    | .error misuse => (.error misuse, swept)
    | .ok restored => (.ok (columns.map (LookupTable.ofValues width)), restored)

end Circuit

end Combinational
