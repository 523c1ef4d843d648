/-
This file lists the reasons why a circuit cannot be built from its description.

A description is refused as a whole: no part of a circuit survives a failure.
Pins and gates are numbered from one in these reports.
-/

import Combinational.FileError

namespace Combinational

/-- The largest number of input pins of a described circuit. -/
def maxInputs : Nat := 16

/-- The largest number of gates of a described circuit. -/
def maxGates : Nat := 1000

/-- Why a circuit description was refused. -/
inductive LoadError
  /-- The text does not follow the grammar of circuit descriptions. -/
  | malformed
  /-- The declared number of input pins is out of bounds. -/
  | inputCount (count : Nat)
  /-- The declared number of gates is out of bounds. -/
  | gateCount (count : Nat)
  /-- There are more or fewer gate lines than declared gates. -/
  | gateLines (declared found : Nat)
  /-- A gate references an input pin that does not exist. -/
  | inputReference (gate index : Nat)
  /-- A gate references a gate that does not exist. -/
  | gateReference (gate index : Nat)
  /-- Every gate feeds another gate. -/
  | noOutput
  /-- The gates form a loop, on which this one lies. -/
  | combinationalLoop (gate : Nat)
  /-- The description could not be read. -/
  | unreadable (cause : FileError)
deriving DecidableEq

/-- The families of load errors. -/
inductive LoadError.Category
  /-- The text is not a circuit description. -/
  | format
  /-- A declared count is out of bounds, or differs from what follows. -/
  | range
  /-- A reference to something that does not exist. -/
  | reference
  /-- The gates have no output, or form a loop. -/
  | topology
  /-- The description could not be read. -/
  | file
deriving DecidableEq

namespace LoadError

/-- The family of a load error. -/
def category : LoadError → Category
  | malformed => .format
  | inputCount _ | gateCount _ | gateLines _ _ => .range
  | inputReference _ _ | gateReference _ _ => .reference
  | noOutput | combinationalLoop _ => .topology
  | unreadable _ => .file

/-- The explanation given to the user. -/
def message : LoadError → String
  | malformed => "circuit description is not well-formed LCF"
  | inputCount count =>
    "invalid number of input pins " ++ count.repr ++ ", expected 1 to " ++ maxInputs.repr
  | gateCount count =>
    "invalid number of gates " ++ count.repr ++ ", expected 1 to " ++ maxGates.repr
  | gateLines declared found =>
    declared.repr ++ " gates declared but " ++ found.repr ++ " gate lines given"
  | inputReference gate index =>
    "gate " ++ gate.repr ++ " references input pin " ++ index.repr ++ ", which does not exist"
  | gateReference gate index =>
    "gate " ++ gate.repr ++ " references gate " ++ index.repr ++ ", which does not exist"
  | noOutput => "every gate feeds another gate: the circuit has no output"
  | combinationalLoop gate => "gate " ++ gate.repr ++ " is part of a combinational loop"
  | unreadable cause => "unable to read the circuit description: " ++ cause.message

end LoadError

end Combinational
