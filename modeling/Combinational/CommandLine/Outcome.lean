/-
This file describes what comes of a command of the command line.
-/

import Combinational.Lcf.Loading

namespace Combinational.CommandLine

/-- Why a command failed. -/
inductive Failure
  /-- The circuit could not be loaded. -/
  | load (path : String) (cause : LoadError)
  /-- A file or the terminal could not be used. -/
  | file (cause : FileError)
  /-- Not one value per input pin was given. -/
  | valueCount (expected given : Nat)
  /-- A value is not a digit. -/
  | valueDigit (character : Char)
  /-- The number of input pins to generate is out of bounds. -/
  | inputRange
  /-- The number of gates to generate is out of bounds. -/
  | gateRange
  /-- The circuit could not be used as intended. -/
  | misuse (cause : Misuse)
deriving DecidableEq

/-- The explanation of a failure, and of its causes. -/
def Failure.chain : Failure → List String
  | load path (.unreadable cause) =>
    ["Unable to load " ++ path, (LoadError.unreadable cause).message, cause.message]
  | load path cause => ["Unable to load " ++ path, cause.message]
  | file cause => [cause.message]
  | valueCount expected given =>
    ["Expected " ++ expected.repr ++ " input values, got " ++ given.repr]
  | valueDigit character =>
    ["The value of input pin must be 0/1, got " ++ String.singleton character]
  | inputRange => ["Number of input pins must be between 1 and " ++ maxInputs.repr]
  | gateRange => ["Number of gates must be between 1 and " ++ maxGates.repr]
  | misuse cause => cause.message?.toList

/-- The explanation of a failure, with its causes on the lines below. -/
def Failure.report (failure : Failure) : String :=
  String.intercalate "\n\nCaused by:\n    " failure.chain

/-- What a command shows and logs, and whether it succeeded. -/
structure Outcome where
  /-- Whether the command succeeded. -/
  result : Except Failure Unit
  /-- What is shown to the user. -/
  text : String
  /-- The records left in the log. -/
  log : List Log.Record

/-- The outcome of a command that succeeds or fails at its end. -/
def Outcome.ofText (log : List Log.Record) : Except Failure String → Outcome
  | .ok text => { result := .ok (), text, log }
  | .error failure => { result := .error failure, text := "", log }

/-! ### Steps of a command -/

section

variable {m : Type → Type} [Monad m] {Value : Type}

/-- A step that uses a file or the terminal. -/
def ofSystem (step : ExceptT FileError m Value) : ExceptT Failure m Value :=
  step.adapt .file

/-- A step that uses a circuit. -/
def ofCircuit (answer : Except Misuse Value) : ExceptT Failure m Value :=
  .mk (pure (answer.mapError .misuse))

@[simp] theorem run_ofSystem (step : ExceptT FileError m Value) :
    (ofSystem step).run = Except.mapError .file <$> step.run :=
  rfl

end

end Combinational.CommandLine
