/-
This file reads commands from the arguments of the program.

The first argument names the command; without it the menu is opened. The other
arguments are the parameters of the command. Parameters that exclude each other
are reported before those that are missing.
-/

import Combinational.CommandLine.Command
import Combinational.CommandLine.Parameter

namespace Combinational.CommandLine

/-- The commands by name. -/
inductive Subcommand
  /-- The interactive menu. -/
  | menu
  /-- The size of a circuit. -/
  | show
  /-- One assignment. -/
  | simulate
  /-- All assignments. -/
  | truthTable
  /-- The functions of the outputs. -/
  | functions
  /-- A random circuit. -/
  | generate
deriving DecidableEq

/-! ### Names and parameters -/

/-- The command with a name or a short name. -/
def Subcommand.ofName? : String → Option Subcommand
  | "menu" | "ui" => some .menu
  | "show" => some .show
  | "simulate" | "sim" => some .simulate
  | "truth-table" | "tt" => some .truthTable
  | "functions" => some .functions
  | "generate" | "gen" => some .generate
  | _ => none

/-- The parameters of each command, besides the common ones. -/
def Subcommand.parameters : Subcommand → List Parameter
  | menu | functions => []
  | .show => [{ long := "netlist", short := none, shape := .flag }]
  | simulate => [
      { long := "input", short := some 'i', shape := .text },
      { long := "random", short := none, shape := .flag },
      { long := "seed", short := none, shape := .number }]
  | truthTable => [{ long := "output", short := some 'o', shape := .path }]
  | generate => [
      { long := "inputs", short := some 'i', shape := .number },
      { long := "gates", short := some 'g', shape := .number },
      { long := "seed", short := none, shape := .number },
      { long := "output", short := some 'o', shape := .path }]

/-- Whether a command works on a file that is named without dashes. -/
def Subcommand.takesFile : Subcommand → Bool
  | menu | generate => false
  | .show | simulate | truthTable | functions => true

/-- The arguments that a command takes. -/
def Subcommand.signature (subcommand : Subcommand) : Signature where
  options := subcommand.parameters ++ commonParameters
  takesFile := subcommand.takesFile

/-! ### Values of parameters -/

/-- The value of a parameter that must be given. -/
def required (given : List (String × String)) (name : String) : Except UsageError String :=
  match given.lookup name with
  | some value => .ok value
  | none => .error .missingRequiredArgument

/-- The value of a parameter that must be given and is a number. -/
def requiredNumber (given : List (String × String)) (name : String) : Except UsageError Nat := do
  let value ← required given name
  match natural? value with
  | some number => return number
  | none => throw .valueValidation

/-- The seed, which is one by default. -/
def seedOf (given : List (String × String)) : UInt64 :=
  match (given.lookup "seed").bind natural? with
  | some seed => UInt64.ofNat seed
  | none => 1

/-- The values to simulate with. Random values exclude given ones. -/
def choiceOf (given : List (String × String)) : Except UsageError InputChoice :=
  match given.lookup "input", given.lookup "random" with
  | some _, some _ => .error .argumentConflict
  | some digits, none => .ok (.digits digits)
  | none, some _ => .ok .random
  | none, none => .ok .zeros

/-! ### Commands -/

/-- The command with some parameters. -/
def Subcommand.command (given : List (String × String)) :
    Subcommand → Except UsageError Command
  | menu => return .menu
  | .show => return .show (← required given "file") (given.lookup "netlist").isSome
  | simulate => do
    let choice ← choiceOf given
    return .simulate (← required given "file") choice (seedOf given)
  | truthTable => return .truthTable (← required given "file") (given.lookup "output")
  | functions => return .functions (← required given "file")
  | generate => do
    let inputs ← requiredNumber given "inputs"
    let gates ← requiredNumber given "gates"
    return .generate inputs gates (seedOf given) (← required given "output")

/-- The answer to a request for the usage of a command, if there is such a command. -/
def describeUsage : List String → UsageError
  | [] | ["help"] => .displayHelp
  | [name] => if (Subcommand.ofName? name).isSome then .displayHelp else .invalidSubcommand
  | _ => .invalidSubcommand

/-- The reason why a first argument other than the name of a command is refused. -/
def refuseFirst (argument : String) : UsageError :=
  match ({} : Progress).take { options := commonParameters, takesFile := false } argument with
  | .error .unknownArgument =>
    match argument.toList with
    | '-' :: _ :: _ => .unknownArgument
    | _ => .invalidSubcommand
  | .error error => error
  | .ok _ => .invalidSubcommand

/-- The reason why the argument after two dashes is refused. Nothing may follow them, and the name
of a command must not come after them. -/
def refuseLiteral (argument : String) : UsageError :=
  if (Subcommand.ofName? argument).isSome ∨ argument = "help" then .unknownArgument
  else .invalidSubcommand

/-- The command that the arguments of the program give. -/
def readArguments : List String → Except UsageError Command
  | [] | ["--"] => .ok .menu
  | "--" :: argument :: _ => .error (refuseLiteral argument)
  | "help" :: names => .error (describeUsage names)
  | name :: arguments =>
    match Subcommand.ofName? name with
    | some subcommand => do
      let given ← readParameters subcommand.signature arguments
      subcommand.command given
    | none => .error (refuseFirst name)

end Combinational.CommandLine
