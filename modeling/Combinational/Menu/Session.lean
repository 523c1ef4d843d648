/-
This file holds the dialogue of the menu over the lines of an input.

A session asks each question and answers it with the next line. It ends when the
user leaves or the input is exhausted, and fails at a line that is not text. A
command may also be performed by itself, and then ends when it is complete.
-/

import Combinational.Line
import Combinational.Menu.Dialogue

namespace Combinational.Menu

/-- Why a session ended early. -/
inductive Failure
  /-- A line could not be read. -/
  | line (cause : FileError)
  /-- The circuit could not be simulated. -/
  | misuse (cause : Misuse)
deriving DecidableEq

/-- What was seen of a session, and where it ended. -/
structure Outcome where
  /-- Whether the menu goes on, or why the session failed. -/
  result : Except Failure Bool
  /-- All that was shown. -/
  text : String
  /-- All records left in the log. -/
  log : List Log.Record
  /-- The circuit loaded at the end. -/
  circuit : Option Circuit
  /-- The lines that were not read. -/
  rest : List Line

/-- Whether a session performs one command or returns to the menu after each. -/
inductive Scope
  /-- One command. -/
  | single
  /-- Commands until the user leaves. -/
  | repeated
deriving DecidableEq

/-- The next question, or the result of the session. -/
def Turn.next (scope : Scope) : Turn → Except Failure Bool ⊕ Question
  | ask question => .inr question
  | done goesOn => if scope = .repeated ∧ goesOn then .inr .command else .inl (.ok goesOn)
  | failed misuse => .inl (.error (.misuse misuse))

/-- Continues a session after a reply, given what was shown and logged before it. -/
def converse {m : Type → Type} [Monad m] (files : Files m) (scope : Scope) (text : String)
    (log : List Log.Record) (reply : Reply) (lines : List Line) : m Outcome :=
  let text := text ++ reply.text
  let log := log ++ reply.log
  let circuit := reply.circuit
  match reply.turn.next scope with
  | .inl result => pure { result, text, log, circuit, rest := lines }
  | .inr question =>
    let text := text ++ question.prompt
    match lines with
    | [] => pure { result := .ok false, text, log, circuit, rest := [] }
    | .garbled :: rest =>
      pure { result := .error (.line .invalidText), text, log, circuit, rest }
    | .text line :: rest => do
      let next ← answer files circuit line question
      converse files scope text log next rest

/-- Takes the next line, if there is one, as the answer to a question. The session goes on with the
reply, or ends with a result. -/
def proceed {m : Type → Type} [Monad m] (files : Files m) (circuit : Option Circuit)
    (question : Question) : Option Line → m (Except Failure Bool ⊕ Reply)
  | none => return .inl (.ok false)
  | some .garbled => return .inl (.error (.line .invalidText))
  | some (.text line) => return .inr (← answer files circuit line question)

/-- Performs one command. -/
def process {m : Type → Type} [Monad m] (files : Files m) (circuit : Option Circuit)
    (command : Command) (lines : List Line) : m Outcome :=
  converse files .single "" [] (perform circuit command) lines

/-- The reply that opens a session. -/
def welcome : Reply where
  circuit := none
  turn := .ask .command

/-- Performs commands until the user leaves or the input is exhausted. -/
def run {m : Type → Type} [Monad m] (files : Files m) (lines : List Line) : m Outcome :=
  converse files .repeated "" [] welcome lines

end Combinational.Menu
