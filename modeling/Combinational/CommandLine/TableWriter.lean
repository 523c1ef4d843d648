/-
This file writes the table of all assignments row by row.

Every row is written as soon as it is known, and then counted by a bar. So what
comes before the first step that fails has been written.
-/

import Combinational.Bar
import Combinational.Circuit.Simulation
import Combinational.CommandLine.Outcome

namespace Combinational.CommandLine

variable {m : Type → Type} [Monad m]

/-- Writes the rows of some assignments. The input pins keep the last one. -/
def writeRows (write : String → ExceptT FileError m Unit) (bar : Bar m) :
    List (List Bool) → Circuit → ExceptT Failure m Circuit
  | [], circuit => return circuit
  | inputs :: others, circuit => do
    let assigned ← ofCircuit (circuit.setInputs inputs)
    let outputs ← ofCircuit assigned.outputValues
    ofSystem (write (Row.text { inputs, outputs } ++ "\n"))
    ofSystem (bar.update 1)
    writeRows write bar others assigned

/-- What the bar tells about a circuit. -/
def announcement (circuit : Circuit) : String :=
  "Simulating circuit with " ++ circuit.inputCount.repr ++ " input pins and " ++
    circuit.outputCount.repr ++ " output pins"

/-- Writes the header and the rows of all assignments. -/
def writeTruthTable (write : String → ExceptT FileError m Unit) (bar : Bar m)
    (circuit : Circuit) : ExceptT Failure m Circuit := do
  let assignments ← ofCircuit (Assignments.all circuit.inputCount)
  bar.start assignments.remaining
  bar.describe "Rows"
  ofSystem (bar.write (announcement circuit))
  ofSystem (write (TruthTable.header circuit.inputCount circuit.outputCount ++ "\n"))
  let swept ← writeRows write bar assignments.toList circuit
  ofSystem bar.refresh
  bar.finish
  return swept

end Combinational.CommandLine
