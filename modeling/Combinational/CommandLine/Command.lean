/-
This file lists the commands of the command line.
-/

namespace Combinational.CommandLine

/-- The values to simulate a circuit with. -/
inductive InputChoice
  /-- One digit per input pin, the first pin first. -/
  | digits (text : String)
  /-- Random values. -/
  | random
  /-- False for every input pin. -/
  | zeros
deriving DecidableEq

/-- A command with its arguments. -/
inductive Command
  /-- The interactive menu. -/
  | menu
  /-- The size of a circuit, and its devices if asked for. -/
  | show (file : String) (netlist : Bool)
  /-- The outputs for one assignment. -/
  | simulate (file : String) (choice : InputChoice) (seed : UInt64)
  /-- The outputs for all assignments, shown or written to a file. -/
  | truthTable (file : String) (output : Option String)
  /-- The function of each output. -/
  | functions (file : String)
  /-- A random circuit, written to a file. -/
  | generate (inputs gates : Nat) (seed : UInt64) (output : String)
deriving DecidableEq

end Combinational.CommandLine
