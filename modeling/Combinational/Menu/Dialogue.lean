/-
This file describes the dialogue of the menu, one question and one answer at a time.

A command may need answers: the path of a file, or the value of each input pin.
Every reply to a command or an answer says what is shown to the user, which
circuit is loaded from now on, and whether another answer is needed. The circuit
and its pins change only when a command has all its answers.
-/

import Combinational.Circuit.Simulation
import Combinational.Lcf.File
import Combinational.Menu.Command

namespace Combinational.Menu

/-! ### Questions and replies -/

/-- What the user is asked. -/
inductive Question
  /-- Which command to perform. -/
  | command
  /-- Which file to load. -/
  | path
  /-- The value of the next input pin, after those already given. -/
  | pin (given : List Bool)
deriving DecidableEq

/-- The text that asks a question. -/
def Question.prompt : Question → String
  | command => choices
  | path => "Please key in a file path: "
  | pin given => "Please key in the value of input pin " ++ (given.length + 1).repr ++ ": "

/-- How the dialogue goes on. -/
inductive Turn
  /-- An answer is needed. -/
  | ask (question : Question)
  /-- The command is complete, and tells whether the menu goes on. -/
  | done (goesOn : Bool)
  /-- The circuit could not be simulated. -/
  | failed (misuse : Misuse)
deriving DecidableEq

/-- The reply to a command or to an answer. -/
structure Reply where
  /-- What is shown to the user. -/
  text : String := ""
  /-- The records left in the log. -/
  log : List Log.Record := []
  /-- The circuit loaded from now on. -/
  circuit : Option Circuit
  /-- How the dialogue goes on. -/
  turn : Turn

/-! ### Commands -/

/-- The reply to a command that needs a circuit when none is loaded. -/
def withoutCircuit : Reply where
  text := "Please load an lcf file, before using this operation.\n"
  circuit := none
  turn := .done true

/-- Assigns the values given for the input pins, and shows the outputs. -/
def showSimulation (circuit : Circuit) (values : List Bool) : Reply :=
  match circuit.setInputs values with
  | .error misuse => { circuit := some circuit, turn := .failed misuse }
  | .ok assigned =>
    match assigned.evaluateOnce with
    | .error misuse => { circuit := some assigned, turn := .failed misuse }
    | .ok table =>
      { text := "Simulation Result:\n" ++ table ++ "\n"
        circuit := some assigned
        turn := .done true }

/-- Asks for the value of the next input pin, or shows the outputs if all values are given. -/
def askPins (circuit : Option Circuit) (given : List Bool) : Reply :=
  match circuit with
  | none => withoutCircuit
  | some loaded =>
    if given.length < loaded.inputCount then { circuit, turn := .ask (.pin given) }
    else showSimulation loaded given

/-- Shows the outputs for all assignments. -/
def showTruthTable (circuit : Circuit) : Reply :=
  match circuit.evaluateAll with
  | (.error misuse, swept) => { circuit := some swept, turn := .failed misuse }
  | (.ok table, swept) =>
    { text := "Truth table:\n" ++ table ++ "\n", circuit := some swept, turn := .done true }

/-- The reply to a command. -/
def perform (circuit : Option Circuit) : Command → Reply
  | .load => { circuit, turn := .ask .path }
  | .simulation => askPins circuit []
  | .truthTable => (circuit.map showTruthTable).getD withoutCircuit
  | .exit => { text := "Goodbye, thanks for using LS.\n", circuit, turn := .done false }

/-! ### Answers -/

/-- The reply to the loading of a file. A failure discards the circuit loaded before. -/
def showLoaded (path : String) : Except LoadError Circuit × List Log.Record → Reply
  | (.ok circuit, log) => {
      text := circuit.summary ++ "\n"
      log := log ++ [{ level := .info, message := "Loaded circuit from " ++ path }]
      circuit := some circuit
      turn := .done true }
  | (.error error, log) => {
      text := "File not found or file format error!!\n"
      log := log ++ [{
        level := .warn, message := "Unable to load " ++ path ++ ": " ++ error.message }]
      circuit := none
      turn := .done true }

/-- The reply to a choice from the menu. -/
def answerCommand (circuit : Option Circuit) (line : String) : Reply :=
  match Command.ofNumber? line with
  | some command => perform circuit command
  | none => { text := "Invalid command\n", circuit, turn := .done true }

/-- The reply to the value of an input pin. The question is repeated until the answer is a
digit. -/
def answerPin (circuit : Option Circuit) (given : List Bool) (line : String) : Reply :=
  match Text.trim line with
  | "0" => askPins circuit (given ++ [false])
  | "1" => askPins circuit (given ++ [true])
  | _ => {
      text := "The value of input pin must be 0/1\n"
      circuit
      turn := .ask (.pin given) }

/-- The reply to the answer to a question. -/
def answer {m : Type → Type} [Monad m] (files : Files m) (circuit : Option Circuit)
    (line : String) : Question → m Reply
  | .command => pure (answerCommand circuit line)
  | .path => return showLoaded (Text.trim line) (← Lcf.loadFile files (Text.trim line))
  | .pin given => pure (answerPin circuit given line)

end Combinational.Menu
