/-
This file explains the command line to the user.
-/

import Combinational.CommandLine.Parameter

namespace Combinational.CommandLine

/-- The commands and their parameters. -/
def usage : String :=
  "Simulator for combinational circuits described in LCF\n" ++
  "\n" ++
  "Commands:\n" ++
  "  menu, ui                       interactive menu, also without a command\n" ++
  "  show FILE [--netlist]          size and statistics of a circuit\n" ++
  "  simulate, sim FILE [-i, --input BITS | --random] [--seed N]\n" ++
  "                                 outputs for one assignment\n" ++
  "  truth-table, tt FILE [-o, --output OUT]\n" ++
  "                                 outputs for all assignments\n" ++
  "  functions FILE                 lookup table of each output\n" ++
  "  generate, gen -i, --inputs N -g, --gates N [--seed N] -o, --output OUT\n" ++
  "                                 random circuit\n" ++
  "  help                           this text\n"

/-- The name of the program and its version. -/
def version : String :=
  "combinational 0.1.0\n"

/-- The explanation of refused arguments. -/
def UsageError.message : UsageError → String
  | argumentConflict => "an argument cannot be used twice or with another one"
  | missingRequiredArgument => "a required argument is missing"
  | invalidValue => "an argument needs a value"
  | invalidSubcommand => "there is no such command"
  | valueValidation => "a value is not a number in range"
  | unknownArgument => "there is an unexpected argument"
  | tooManyValues => "an argument takes no value"
  | displayHelp => usage
  | displayVersion => version

end Combinational.CommandLine
