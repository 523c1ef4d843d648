/-
This file describes circuits in the logic circuit format, LCF.

A description gives the number of input pins, the number of gates, and one
statement per gate. Its text has a line for each of the two numbers and for each
statement. A statement is a list of words: the code of the kind of the gate, its
sources, and a final `0`. An input pin is written as `-` and its number, a gate
as its number, a dot and the number of one of its terminals. A gate has a single
output, so the terminal has no meaning; it is written as `1`.
-/

import Combinational.Circuit.Basic
import Combinational.Statement

namespace Combinational.Lcf

/-- A circuit as described: two declared numbers, and the gates. -/
structure Description where
  /-- The declared number of input pins. -/
  inputs : Nat
  /-- The declared number of gates. -/
  gates : Nat
  /-- The gates that are given. -/
  statements : List Statement
deriving DecidableEq

/-! ### Writing -/

/-- A source as a word. -/
def sourceText : Source → String
  | .input number => "-" ++ number.repr
  | .gate number => number.repr ++ ".1"

/-- A statement as a line, without the line feed. -/
def statementText (statement : Statement) : String :=
  String.intercalate " "
    ([statement.kind.code.repr] ++ statement.sources.map sourceText ++ ["0"])

/-- A description as text, each line ended by a line feed. -/
def Description.text (description : Description) : String :=
  String.join ((description.inputs.repr :: description.gates.repr ::
    description.statements.map statementText).map (· ++ "\n"))

/-! ### The description of a circuit -/

/-- What a reference to an input pin or gate stands for. Other devices have no number. -/
def source? (circuit : Circuit) (reference : DeviceId) : Option Source :=
  match circuit.inputNumber? reference with
  | some number => some (.input number)
  | none => (circuit.gateNumber? reference).map .gate

/-- The statement that defines a gate. -/
def statement? (circuit : Circuit) (gate : DeviceId) : Option Statement :=
  match circuit.device gate with
  | .ok (.gate kind references) =>
    some { kind, sources := references.filterMap (source? circuit) }
  | _ => none

/-- The description of a circuit. The output pins have no place in it. -/
def describe (circuit : Circuit) : Description where
  inputs := circuit.inputCount
  gates := circuit.gateCount
  statements := circuit.gates.toList.filterMap (statement? circuit)

/-- The description of a circuit as text. -/
def write (circuit : Circuit) : String :=
  (describe circuit).text

end Combinational.Lcf
