/-
This file lists the commands of the menu.
-/

import Combinational.Text.Blank

namespace Combinational.Menu

/-- A choice from the menu. -/
inductive Command
  /-- Load a circuit from a description file. -/
  | load
  /-- Simulate the circuit for values given by the user. -/
  | simulation
  /-- Show the truth table of the circuit. -/
  | truthTable
  /-- Leave the menu. -/
  | exit
deriving DecidableEq

/-- The command with a number of the menu, which may have white space around it. -/
def Command.ofNumber? (text : String) : Option Command :=
  match Text.trim text with
  | "1" => some .load
  | "2" => some .simulation
  | "3" => some .truthTable
  | "4" => some .exit
  | _ => none

/-- The choices, and the prompt for one of them. -/
def choices : String :=
  "1. Load logic circuit file\n" ++
  "2. Simulation\n" ++
  "3. Display truth table\n" ++
  "4. Exit\n" ++
  "Command: "

end Combinational.Menu
