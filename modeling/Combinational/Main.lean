/-
This file connects the command line and the menu to the console and the file
system.
-/

import Combinational.CommandLine.Arguments
import Combinational.CommandLine.Execution
import Combinational.CommandLine.Usage
import Combinational.Random.Uniform

namespace Combinational.Console

/-! ### Files and lines -/

/-- The reason why the operating system refused an access. -/
def fileError : IO.Error → FileError
  | .noFileOrDirectory .. => .notFound
  | .inappropriateType .. => .isDirectory
  | error => .refused error.toString

/-- Takes a step of which the operating system may refuse some part. -/
def attempt {Value : Type} (step : IO (Except FileError Value)) : ExceptT FileError IO Value :=
  .mk (try step catch error => return .error (fileError error))

/-- Access to the files of the operating system. -/
def files : Files IO where
  Handle := IO.FS.Handle
  read path := attempt do
    match String.fromUTF8? (← IO.FS.readBinFile path) with
    | some text => return .ok text
    | none => return .error .invalidText
  create path := attempt do return .ok (← IO.FS.Handle.mk path .write)
  write file text := attempt do return .ok (← file.putStr text)
  flush file := attempt do return .ok (← file.flush)

/-- The bytes of the input up to and with the next line feed, or all that is left. -/
partial def readBytes (input : IO.FS.Stream) (bytes : ByteArray) : IO ByteArray := do
  let next ← input.read 1
  if next.isEmpty then return bytes
  let bytes := bytes ++ next
  if next.data = #[0x0A] then return bytes
  readBytes input bytes

/-- The next line of the input, if there is one. -/
def readLine (input : IO.FS.Stream) : IO (Option Line) := do
  let bytes ← readBytes input ByteArray.empty
  return (Line.ofInput bytes.toList).head?

/-! ### Showing -/

/-- Shows a text at once. -/
def display (text : String) : IO Unit := do
  let output ← IO.getStdout
  output.putStr text
  output.flush

/-- A bar on the terminal, beside the output. -/
def bar (progress : IO.Ref Display) : Bar IO :=
  let carry {Value : Type} (step : StateM Display Value) : IO Value := do
    let (value, display) := step.run (← progress.get)
    IO.eprint display.shown
    progress.set { display with shown := "" }
    return value
  Display.bar.hoist carry

/-- Shows the warnings among some records. -/
def displayWarnings (records : List Log.Record) : IO Unit :=
  records.forM fun record => if record.level = .warn then IO.eprintln record.text else pure ()

/-- Shows why a command failed, and answers with the exit code. -/
def displayFailure (failure : CommandLine.Failure) : IO UInt32 := do
  IO.eprintln ("Error: " ++ failure.report)
  return 1

/-! ### The program -/

/-- Shows how a command ended, and answers with the exit code. -/
def displayResult : Except CommandLine.Failure Unit → IO UInt32
  | .ok () => return 0
  | .error failure => displayFailure failure

/-- Holds the dialogue of the menu after a reply, one line at a time. -/
partial def converse (input : IO.FS.Stream) (reply : Menu.Reply) :
    IO (Except Menu.Failure Bool) := do
  displayWarnings reply.log
  display reply.text
  match reply.turn.next .repeated with
  | .inl result => return result
  | .inr question =>
    display question.prompt
    match ← Menu.proceed files reply.circuit question (← readLine input) with
    | .inl result => return result
    | .inr next => converse input next

/-- Performs a command other than the menu. -/
def perform (command : CommandLine.Command) : IO UInt32 := do
  let bar := bar (← IO.mkRef {})
  let outcome ← command.run { files, bar, generator := Random.Xoshiro.generator } []
  displayWarnings outcome.log
  display outcome.text
  displayResult outcome.result

/-- Performs the command that the arguments give, and answers with the exit code. -/
def run (arguments : List String) : IO UInt32 := do
  match CommandLine.readArguments arguments with
  | .ok .menu =>
    let result ← converse (← IO.getStdin) Menu.welcome
    displayResult ((result.map fun _ => ()).mapError CommandLine.sessionFailure)
  | .ok command => perform command
  | .error .displayHelp => display CommandLine.usage; return 0
  | .error .displayVersion => display CommandLine.version; return 0
  | .error error => IO.eprintln ("error: " ++ error.message); return 2

end Combinational.Console

/-- The program. -/
def main (arguments : List String) : IO UInt32 :=
  Combinational.Console.run arguments
