/-
This file proves that what is loaded in the menu follows from the complete commands alone.

Commands may be performed one by one, each followed by lines of its own, or in a session that reads
commands and answers from one input. Either way nothing is misused, whatever the files and the lines
are, and what is loaded follows from the events so far, between any two lines. A session reaches the
end of its input or stops before it, since every command that it performs has taken a line.
-/

import Combinational.Proofs.Attempts
import Mathlib.Data.List.Induction

namespace Combinational.Menu

open Relation

/-! ### Commands one by one -/

/-- The events after one more command, which is followed by some lines. -/
def eventsAfter (directory : Directory) (events : List Event) (command : Command)
    (lines : List Line) : List Event :=
  match (attempt ((circuitAfter directory events).map Circuit.inputCount) command lines).1 with
  | .ok event? => events ++ event?.toList
  | .error _ => events

/-- The events of some commands, each followed by its own lines. -/
def historyEvents (directory : Directory) (history : List (Command × List Line)) : List Event :=
  history.foldl (fun events (command, lines) => eventsAfter directory events command lines) []

/-- What is loaded after some commands, each followed by its own lines. -/
def historyCircuit (directory : Directory) (history : List (Command × List Line)) :
    Option Circuit :=
  history.foldl (fun circuit (command, lines) =>
    ((process Directory.files circuit command lines).run directory).1.circuit) none

section Commands

variable {directory : Directory} {events : List Event} {circuit : Option Circuit}
  (loaded : circuitAfter directory events = circuit) (command : Command) (lines : List Line)

include loaded

/-- One command ends, with the result that its answers have. -/
theorem exists_ends_of_perform : ∃ point result,
    Reaches directory .single ⟨perform circuit command, lines⟩ point ∧
    Ends .single point result
      (attempt (circuit.map Circuit.inputCount) command lines).2 ∧
    point.reply.circuit = circuitAfter directory (eventsAfter directory events command lines) ∧
    match (attempt (circuit.map Circuit.inputCount) command lines).1 with
    | .ok _ => result = .ok (command != .exit)
    | .error interruption => result = interruption.result := by
  unfold eventsAfter
  rw [loaded]
  cases tried : attempt (circuit.map Circuit.inputCount) command lines with
  | mk answered rest =>
    cases answered with
    | ok event? =>
      obtain ⟨reply, reaches, turn, same⟩ := reaches_of_attempt_eq_ok loaded .single tried
      have finished : reply.turn.next .single = .inl (.ok (command != .exit)) := by
        rw [turn]
        rfl
      exact ⟨_, _, reaches, .complete finished rest, same, rfl⟩
    | error interruption =>
      obtain ⟨point, reaches, same, ends⟩ := reaches_of_attempt_eq_error loaded .single tried
      exact ⟨point, _, reaches, ends, same.trans loaded.symm, rfl⟩

theorem exists_outcome_of_process : ∃ outcome,
    (process Directory.files circuit command lines).run directory = (outcome, directory) ∧
    outcome.rest = (attempt (circuit.map Circuit.inputCount) command lines).2 ∧
    outcome.circuit = circuitAfter directory (eventsAfter directory events command lines) ∧
    match (attempt (circuit.map Circuit.inputCount) command lines).1 with
    | .ok _ => outcome.result = .ok (command != .exit)
    | .error interruption => outcome.result = interruption.result := by
  obtain ⟨point, result, reaches, ends, same, answered⟩ :=
    exists_ends_of_perform loaded command lines
  obtain ⟨outcome, converses, rfl, kept, rest⟩ := exists_outcome_of_reaches reaches ends "" []
  exact ⟨outcome, converses, rest, kept.trans same, answered⟩

/-- Inside a command, what is loaded follows from the lines that it has read. -/
theorem circuit_eq_of_reaches {point : Point}
    (reaches : Reaches directory .single ⟨perform circuit command, lines⟩ point) :
    ∃ past, lines = past ++ point.lines ∧
      point.reply.circuit =
        circuitAfter directory (eventsAfter directory events command past) := by
  obtain ⟨past, split, reached⟩ := reaches.exists_past
  obtain ⟨last, result, whole, ends, same, _⟩ := exists_ends_of_perform loaded command past
  exact ⟨past, split, (Reaches.circuit_eq reached whole ends).trans same⟩

end Commands

theorem historyEvents_concat (directory : Directory) (history : List (Command × List Line))
    (command : Command) (lines : List Line) :
    historyEvents directory (history ++ [(command, lines)]) =
      eventsAfter directory (historyEvents directory history) command lines := by
  rw [historyEvents, List.foldl_append]
  rfl

theorem historyCircuit_concat (directory : Directory) (history : List (Command × List Line))
    (command : Command) (lines : List Line) :
    historyCircuit directory (history ++ [(command, lines)]) =
      ((process Directory.files (historyCircuit directory history) command lines).run
        directory).1.circuit := by
  rw [historyCircuit, List.foldl_append]
  rfl

theorem circuitAfter_historyEvents (directory : Directory)
    (history : List (Command × List Line)) :
    circuitAfter directory (historyEvents directory history) =
      historyCircuit directory history := by
  induction history using List.reverseRecOn with
  | nil => rfl
  | append_singleton history step inductionHypothesis =>
    obtain ⟨command, lines⟩ := step
    obtain ⟨outcome, processes, _, same, _⟩ :=
      exists_outcome_of_process inductionHypothesis command lines
    rw [historyEvents_concat, historyCircuit_concat, processes, same]

/-! ### Sessions -/

/-- The events of a session that reads its commands and their answers from some lines, after some
other events. -/
def sessionEvents (directory : Directory) (events : List Event) : List Line → List Event
  | [] => events
  | .garbled :: _ => events
  | .text line :: rest =>
    match Command.ofNumber? line with
    | none => sessionEvents directory events rest
    | some .exit => events
    | some command =>
      match _ :
        attempt ((circuitAfter directory events).map Circuit.inputCount) command rest with
      | (.ok event?, left) => sessionEvents directory (events ++ event?.toList) left
      | (.error _, _) => events
termination_by lines => lines.length
decreasing_by
  · exact Nat.lt_succ_self _
  · next tried =>
      have shorter :=
        length_attempt_le ((circuitAfter directory events).map Circuit.inputCount) command rest
      rw [tried] at shorter
      exact Nat.lt_succ_of_le shorter

section Choices

variable (directory : Directory) {reply : Reply} (asks : reply.turn.next .repeated = .inr .command)
  {line : String} (rest : List Line)

include asks

theorem exists_answers_of_unknown (unknown : Command.ofNumber? line = none) :
    ∃ next, Answers directory .repeated ⟨reply, .text line :: rest⟩ ⟨next, rest⟩ ∧
      next.turn = .done true ∧ next.circuit = reply.circuit := by
  have answers : Answers directory .repeated ⟨reply, .text line :: rest⟩ _ := .answer asks line rest
  simp only [replyTo, answerCommand, unknown] at answers
  exact ⟨_, answers, rfl, rfl⟩

theorem answers_of_known {command : Command} (known : Command.ofNumber? line = some command) :
    Answers directory .repeated ⟨reply, .text line :: rest⟩
      ⟨perform reply.circuit command, rest⟩ := by
  have answers : Answers directory .repeated ⟨reply, .text line :: rest⟩ _ := .answer asks line rest
  simp only [replyTo, answerCommand, known] at answers
  exact answers

end Choices

/-- A session that asks for a command ends, without misuse. -/
theorem exists_ends_of_asks_command {directory : Directory} {events : List Event} {reply : Reply}
    (asks : reply.turn.next .repeated = .inr .command)
    (loaded : circuitAfter directory events = reply.circuit) (lines : List Line) :
    ∃ point result rest, Reaches directory .repeated ⟨reply, lines⟩ point ∧
      Ends .repeated point result rest ∧
      (result = .ok false ∨ result = .error (.line .invalidText)) ∧
      point.reply.circuit = circuitAfter directory (sessionEvents directory events lines) := by
  fun_induction sessionEvents directory events lines generalizing reply with
  | case1 events => exact ⟨_, _, _, ReflTransGen.refl, .exhausted asks, .inl rfl, loaded.symm⟩
  | case2 events rest =>
    exact ⟨_, _, _, ReflTransGen.refl, .garbled asks rest, .inr rfl, loaded.symm⟩
  | case3 events line rest unknown inductionHypothesis =>
    obtain ⟨next, answers, turn, kept⟩ :=
      exists_answers_of_unknown directory asks rest unknown
    have again : next.turn.next .repeated = .inr .command := by
      rw [turn]
      rfl
    obtain ⟨point, result, left, reaches, ends, expected, same⟩ :=
      inductionHypothesis again (loaded.trans kept.symm)
    exact ⟨point, result, left, reaches.head answers, ends, expected, same⟩
  | case4 events line rest known =>
    have answers := answers_of_known directory asks rest known
    exact ⟨_, _, _, ReflTransGen.single answers, .complete rfl rest, .inl rfl, loaded.symm⟩
  | case5 events line rest command stays known event? left tried inductionHypothesis =>
    have answers := answers_of_known directory asks rest known
    rw [loaded] at tried
    obtain ⟨next, performs, turn, after⟩ := reaches_of_attempt_eq_ok loaded .repeated tried
    have again : next.turn.next .repeated = .inr .command := by
      rw [turn, bne_iff_ne.mpr stays]
      rfl
    obtain ⟨point, result, left, reaches, ends, expected, same⟩ :=
      inductionHypothesis again after.symm
    exact ⟨point, result, left, (performs.head answers).trans reaches, ends, expected, same⟩
  | case6 events line rest command stays known interruption left tried =>
    have answers := answers_of_known directory asks rest known
    rw [loaded] at tried
    obtain ⟨point, performs, same, ends⟩ := reaches_of_attempt_eq_error loaded .repeated tried
    refine ⟨point, _, _, performs.head answers, ends, ?_, same.trans loaded.symm⟩
    cases interruption with
    | endOfInput => exact .inl rfl
    | invalidText => exact .inr rfl

theorem exists_ends_of_session (directory : Directory) (lines : List Line) :
    ∃ point result rest, Reaches directory .repeated ⟨welcome, lines⟩ point ∧
      Ends .repeated point result rest ∧
      (result = .ok false ∨ result = .error (.line .invalidText)) ∧
      point.reply.circuit = circuitAfter directory (sessionEvents directory [] lines) := by
  have asks : welcome.turn.next .repeated = .inr .command := rfl
  have loaded : circuitAfter directory [] = welcome.circuit := rfl
  exact exists_ends_of_asks_command asks loaded lines

/-- Inside a session, what is loaded follows from the lines that it has read. -/
theorem circuit_eq_of_session {directory : Directory} {lines : List Line} {point : Point}
    (reaches : Reaches directory .repeated ⟨welcome, lines⟩ point) :
    ∃ past, lines = past ++ point.lines ∧
      point.reply.circuit = circuitAfter directory (sessionEvents directory [] past) := by
  obtain ⟨past, split, reached⟩ := reaches.exists_past
  obtain ⟨last, result, rest, whole, ends, _, same⟩ := exists_ends_of_session directory past
  exact ⟨past, split, (Reaches.circuit_eq reached whole ends).trans same⟩

/-! ### Main statement -/

end Combinational.Menu
