/-
This file reads the arguments of a command one by one.

An argument that begins with two dashes names a parameter by its long name, one
that begins with a single dash names parameters by single letters. A value
follows its parameter as the next argument or is attached to it: after an equals
sign, or directly after a letter. A lone dash is a value. After an argument of
exactly two dashes, no argument names a parameter any more.

A parameter is checked when it is settled, which happens once the argument after
it has been recognised. So an argument that cannot be recognised is reported
before a fault of the parameter in front of it.
-/

import Combinational.Text.Numeral

namespace Combinational.CommandLine

/-- Why the arguments are refused, or answered by a text about the program. -/
inductive UsageError
  /-- Two parameters exclude each other, or one occurs twice. -/
  | argumentConflict
  /-- A parameter that must be given is missing. -/
  | missingRequiredArgument
  /-- A parameter has no value, or an empty path. -/
  | invalidValue
  /-- No command has this name. -/
  | invalidSubcommand
  /-- A value is not a number in range. -/
  | valueValidation
  /-- An argument has no meaning here. -/
  | unknownArgument
  /-- A flag has a value attached. -/
  | tooManyValues
  /-- The description of the usage was asked for. -/
  | displayHelp
  /-- The version was asked for. -/
  | displayVersion
deriving DecidableEq

/-! ### Parameters -/

/-- What a parameter expects. -/
inductive Shape
  /-- Nothing. -/
  | flag
  /-- Any text. -/
  | text
  /-- The path of a file, which is not empty. -/
  | path
  /-- A number of at most 64 bits. -/
  | number
  /-- Nothing: the usage is described at once. -/
  | help
  /-- Nothing: the version is told at once. -/
  | version
deriving DecidableEq

/-- Whether a value has to follow. -/
def Shape.takesValue : Shape → Bool
  | flag | help | version => false
  | text | path | number => true

/-- A parameter of a command. -/
structure Parameter where
  /-- The name after two dashes. -/
  long : String
  /-- The letter after one dash. -/
  short : Option Char
  /-- What the parameter expects. -/
  shape : Shape
deriving DecidableEq

/-- The parameters of a command: those named by dashes, and whether a file is named without. -/
structure Signature where
  /-- The parameters named by dashes. -/
  options : List Parameter
  /-- Whether a file is named. -/
  takesFile : Bool
deriving DecidableEq

/-- The file that a command works on, recognised by its place. -/
def fileParameter : Parameter where
  long := "file"
  short := none
  shape := .path

/-- The parameters that every command has. -/
def commonParameters : List Parameter :=
  [{ long := "help", short := some 'h', shape := .help },
    { long := "version", short := some 'V', shape := .version }]

/-! ### Values -/

/-- The number of at most 64 bits that a text denotes. A plus sign may stand in front of the
digits. -/
def natural? (text : String) : Option Nat :=
  let number := match text.toList with
    | '+' :: digits => Text.numeral? digits
    | digits => Text.numeral? digits
  number.filter (· < UInt64.size)

/-- Refuses a value that does not have the expected shape. -/
def Shape.check (shape : Shape) (value : String) : Except UsageError Unit :=
  match shape with
  | path => if value.isEmpty then .error .invalidValue else .ok ()
  | number => if (natural? value).isSome then .ok () else .error .valueValidation
  | flag | text | help | version => .ok ()

/-! ### Reading -/

/-- The progress of reading arguments. -/
structure Progress where
  /-- The settled parameters by long name, with their values. -/
  given : List (String × String) := []
  /-- The parameter to settle next, and its value if it has one already. -/
  pending : Option (Parameter × Option String) := none
  /-- Whether a file was named. -/
  hasFile : Bool := false
  /-- Whether parameters can no longer be named. -/
  literal : Bool := false
deriving DecidableEq

namespace Progress

/-- Adds a parameter with its value, unless it was given before. -/
def settle (progress : Progress) (parameter : Parameter) (value : String) :
    Except UsageError Progress := do
  if (progress.given.lookup parameter.long).isSome then throw .argumentConflict
  parameter.shape.check value
  return { progress with given := (parameter.long, value) :: progress.given }

/-- Settles the pending parameter. -/
def settlePending (progress : Progress) : Except UsageError Progress :=
  match progress.pending with
  | none => .ok progress
  | some (_, none) => .error .invalidValue
  | some (parameter, some value) => { progress with pending := none }.settle parameter value

/-- Takes a parameter without a value. -/
def takeFlag (progress : Progress) (parameter : Parameter) : Except UsageError Progress := do
  let settled ← progress.settlePending
  match parameter.shape with
  | .help => throw .displayHelp
  | .version => throw .displayVersion
  | .flag | .text | .path | .number => settled.settle parameter ""

/-- Takes a parameter with the value attached to it. -/
def takeAttached (progress : Progress) (parameter : Parameter) (value : String) :
    Except UsageError Progress := do
  let settled ← progress.settlePending
  settled.settle parameter value

/-- Takes a parameter whose value is to follow. -/
def await (progress : Progress) (parameter : Parameter) : Except UsageError Progress := do
  let settled ← progress.settlePending
  return { settled with pending := some (parameter, none) }

/-- Takes the name of a file, if one is expected. -/
def takeFile (signature : Signature) (progress : Progress) (path : String) :
    Except UsageError Progress :=
  if signature.takesFile && !progress.hasFile then do
    let settled ← progress.settlePending
    return { settled with pending := some (fileParameter, some path), hasFile := true }
  else
    .error .unknownArgument

/-- Takes a long name, and the value after its first equals sign. -/
def takeLong (signature : Signature) (progress : Progress) (name : List Char) :
    Except UsageError Progress :=
  match signature.options.find? fun parameter =>
      parameter.long.toList = name.takeWhile (· ≠ '='), name.dropWhile (· ≠ '=') with
  | none, _ => .error .unknownArgument
  | some parameter, [] =>
    if parameter.shape.takesValue then progress.await parameter else progress.takeFlag parameter
  | some parameter, _ :: value =>
    if parameter.shape.takesValue then progress.takeAttached parameter (String.ofList value)
    else .error .tooManyValues

/-- The value attached to a letter; an equals sign may stand in front of it. -/
def attachedValue : List Char → String
  | '=' :: value => String.ofList value
  | value => String.ofList value

/-- Takes letters, up to the first one that expects a value. -/
def takeLetters (signature : Signature) (progress : Progress) :
    List Char → Except UsageError Progress
  | [] => .ok progress
  | letter :: others =>
    match signature.options.find? fun parameter => parameter.short = some letter with
    | none => .error .unknownArgument
    | some parameter =>
      if parameter.shape.takesValue then
        if others.isEmpty then progress.await parameter
        else progress.takeAttached parameter (attachedValue others)
      else do
        let next ← progress.takeFlag parameter
        takeLetters signature next others

/-- Takes an argument that names no parameter: the value of the pending parameter, or a file. -/
def takeWord (signature : Signature) (progress : Progress) (word : String) :
    Except UsageError Progress :=
  match progress.pending with
  | some (parameter, none) => .ok { progress with pending := some (parameter, some word) }
  | _ => progress.takeFile signature word

/-- Takes an argument. -/
def take (signature : Signature) (progress : Progress) (argument : String) :
    Except UsageError Progress :=
  if progress.literal then
    progress.takeFile signature argument
  else
    match argument.toList with
    | ['-', '-'] => .ok { progress with literal := true }
    | '-' :: '-' :: name => progress.takeLong signature name
    | '-' :: letter :: others => progress.takeLetters signature (letter :: others)
    | _ => progress.takeWord signature argument

end Progress

/-- The parameters that some arguments give, by long name. -/
def readParameters (signature : Signature) (arguments : List String) :
    Except UsageError (List (String × String)) := do
  let final ← arguments.foldlM (Progress.take signature) {}
  let settled ← final.settlePending
  return settled.given

end Combinational.CommandLine
