/-
This file follows a session with the menu from line to line.

Between two lines a session is determined by its last reply and by the lines that are left. The next
line answers the question of the reply, and that is all that happens: the files are read but stay as
they are. A session goes through the points that it reaches by answering one line after the other,
and ends where the last reply asks nothing, no line is left, or the next line is not text. What it
has reached after some lines depends on these lines only.
-/

import Combinational.Directory
import Combinational.Menu.Session
import Mathlib.Logic.Relation

namespace Combinational

open Relation

/-! ### Loading files of a directory -/

/-- The circuit that a file of the directory describes, and the records of reading it. -/
def Directory.load (directory : Directory) (path : String) :
    Except LoadError Circuit × List Log.Record :=
  match directory.read path with
  | .ok text => Lcf.load text
  | .error error => (.error (.unreadable error), [])

theorem Lcf.run_loadFile {m : Type → Type} [Monad m] [LawfulMonad m] (directory : Directory)
    (path : String) : (loadFile (Directory.filesOver m) path).run directory =
      pure (directory.load path, directory) := by
  rw [loadFile, StateT.run_bind, Directory.run_read, pure_bind]
  unfold Directory.load
  cases directory.read path <;> rfl

namespace Menu

/-! ### Points of a session -/

/-- The reply to the answer to a question, with the files of a directory. -/
def replyTo (directory : Directory) (circuit : Option Circuit) (line : String) : Question → Reply
  | .command => answerCommand circuit line
  | .path => showLoaded (Text.trim line) (directory.load (Text.trim line))
  | .pin given => answerPin circuit given line

theorem run_answer {m : Type → Type} [Monad m] [LawfulMonad m] (directory : Directory)
    (circuit : Option Circuit) (line : String) (question : Question) :
    (answer (Directory.filesOver m) circuit line question).run directory =
      pure (replyTo directory circuit line question, directory) := by
  cases question with
  | command | pin given => rfl
  | path =>
    rw [answer, StateT.run_bind, Lcf.run_loadFile, pure_bind]
    rfl

/-- A point of a session between two lines. -/
structure Point where
  /-- The last reply. -/
  reply : Reply
  /-- The lines that are left. -/
  lines : List Line

/-- The next line is text and answers the question of the last reply. -/
inductive Answers (directory : Directory) (scope : Scope) : Point → Point → Prop
  | answer {reply : Reply} {question : Question} (asks : reply.turn.next scope = .inr question)
      (line : String) (rest : List Line) :
    Answers directory scope ⟨reply, .text line :: rest⟩
      ⟨replyTo directory reply.circuit line question, rest⟩

/-- One point is reached from another one by answering lines. -/
def Reaches (directory : Directory) (scope : Scope) : Point → Point → Prop :=
  ReflTransGen (Answers directory scope)

/-- No reply ends a session for the fault of a line. -/
theorem next_ne_line (scope : Scope) (turn : Turn) (cause : FileError) :
    turn.next scope ≠ .inl (.error (.line cause)) := by
  unfold Turn.next
  split
  · simp
  · split <;> simp
  · simp

/-- A session ends at a point with a result, and leaves some lines unread. -/
inductive Ends (scope : Scope) : Point → Except Failure Bool → List Line → Prop
  /-- The last reply asks nothing. -/
  | complete {reply : Reply} {result : Except Failure Bool}
      (finished : reply.turn.next scope = .inl result) (lines : List Line) :
    Ends scope ⟨reply, lines⟩ result lines
  /-- No line is left to answer the last question. -/
  | exhausted {reply : Reply} {question : Question}
      (asks : reply.turn.next scope = .inr question) :
    Ends scope ⟨reply, []⟩ (.ok false) []
  /-- The line that should answer the last question is not text. -/
  | garbled {reply : Reply} {question : Question}
      (asks : reply.turn.next scope = .inr question) (rest : List Line) :
    Ends scope ⟨reply, .garbled :: rest⟩ (.error (.line .invalidText)) rest

variable {directory : Directory} {scope : Scope}

theorem converse_answer {reply : Reply} {question : Question}
    (asks : reply.turn.next scope = .inr question) (text : String) (log : List Log.Record)
    (line : String) (rest : List Line) :
    (converse Directory.files scope text log reply (.text line :: rest)).run directory =
      (converse Directory.files scope (text ++ reply.text ++ question.prompt) (log ++ reply.log)
        (replyTo directory reply.circuit line question) rest).run directory := by
  rw [converse]
  simp only [asks]
  rw [StateT.run_bind, run_answer]
  rfl

/-- A session holds the same dialogue beside other effects. -/
theorem run_converse {m : Type → Type} [Monad m] [LawfulMonad m] (directory : Directory)
    (text : String) (log : List Log.Record) (reply : Reply) (lines : List Line) :
    (converse (Directory.filesOver m) scope text log reply lines).run directory =
      pure ((converse Directory.files scope text log reply lines).run directory) := by
  induction lines generalizing text log reply with
  | nil =>
    rw [converse, converse]
    cases reply.turn.next scope <;> rfl
  | cons line rest inductionHypothesis =>
    cases next : reply.turn.next scope with
    | inl result =>
      rw [converse.eq_def, converse.eq_def]
      simp only [next]
      rfl
    | inr question =>
      cases line with
      | garbled =>
        rw [converse, converse]
        simp only [next]
        rfl
      | text line =>
        rw [converse_answer next, converse]
        simp only [next]
        rw [StateT.run_bind, run_answer, pure_bind, inductionHypothesis]

/-- A session may read its lines one at a time: all that it does between two of them is to show and
log the reply, to ask the question, and to proceed with the line that it gets. -/
theorem converse_eq_proceed {m : Type → Type} [Monad m] [LawfulMonad m] (files : Files m)
    (text : String) (log : List Log.Record) (reply : Reply) (lines : List Line) :
    converse files scope text log reply lines =
      match reply.turn.next scope with
      | .inl result => pure {
          result
          text := text ++ reply.text
          log := log ++ reply.log
          circuit := reply.circuit
          rest := lines }
      | .inr question => proceed files reply.circuit question lines.head? >>= fun
        | .inl result => pure {
            result
            text := text ++ reply.text ++ question.prompt
            log := log ++ reply.log
            circuit := reply.circuit
            rest := lines.tail }
        | .inr next =>
            converse files scope (text ++ reply.text ++ question.prompt) (log ++ reply.log) next
              lines.tail := by
  rw [converse.eq_def]
  cases reply.turn.next scope with
  | inl result => rfl
  | inr question =>
    cases lines with
    | nil => simp [proceed]
    | cons line rest => cases line <;> simp [proceed]

/-- A session goes on from each point that it reaches. -/
theorem exists_converse_of_reaches {start point : Point}
    (reaches : Reaches directory scope start point) (text : String) (log : List Log.Record) :
    ∃ shown records,
      (converse Directory.files scope text log start.reply start.lines).run directory =
        (converse Directory.files scope shown records point.reply point.lines).run directory := by
  induction reaches with
  | refl => exact ⟨text, log, rfl⟩
  | tail _ answers inductionHypothesis =>
    obtain ⟨shown, records, same⟩ := inductionHypothesis
    cases answers with
    | answer asks line rest =>
      exact ⟨_, _, same.trans (converse_answer asks shown records line rest)⟩

/-- A reply that asks nothing is the last one. -/
theorem converse_of_finished {reply : Reply} {result : Except Failure Bool}
    (finished : reply.turn.next scope = .inl result) (text : String) (log : List Log.Record)
    (lines : List Line) :
    (converse Directory.files scope text log reply lines).run directory =
      ({ result, text := text ++ reply.text, log := log ++ reply.log, circuit := reply.circuit,
         rest := lines }, directory) := by
  rw [converse.eq_def]
  simp only [finished]
  rfl

theorem exists_outcome_of_ends {point : Point} {result : Except Failure Bool} {rest : List Line}
    (ends : Ends scope point result rest) (text : String) (log : List Log.Record) :
    ∃ outcome,
      (converse Directory.files scope text log point.reply point.lines).run directory =
        (outcome, directory) ∧
      outcome.result = result ∧ outcome.circuit = point.reply.circuit ∧ outcome.rest = rest := by
  cases ends with
  | complete finished lines =>
    exact ⟨_, converse_of_finished finished text log _, rfl, rfl, rfl⟩
  | exhausted asks | garbled asks rest =>
    rw [converse]
    simp only [asks]
    exact ⟨_, rfl, rfl, rfl, rfl⟩

/-- The outcome of a session is that of the point where it ends. -/
theorem exists_outcome_of_reaches {start point : Point} {result : Except Failure Bool}
    {rest : List Line} (reaches : Reaches directory scope start point)
    (ends : Ends scope point result rest) (text : String) (log : List Log.Record) :
    ∃ outcome,
      (converse Directory.files scope text log start.reply start.lines).run directory =
        (outcome, directory) ∧
      outcome.result = result ∧ outcome.circuit = point.reply.circuit ∧ outcome.rest = rest := by
  obtain ⟨shown, records, same⟩ := exists_converse_of_reaches reaches text log
  rw [same]
  exact exists_outcome_of_ends ends shown records

/-! ### The lines before a point -/

/-- A point is reached by the lines before it, whichever come after it. -/
theorem Reaches.exists_past {start point : Point} (reaches : Reaches directory scope start point) :
    ∃ past, start.lines = past ++ point.lines ∧
      Reaches directory scope ⟨start.reply, past⟩ ⟨point.reply, []⟩ := by
  induction reaches using ReflTransGen.head_induction_on with
  | refl => exact ⟨[], rfl, ReflTransGen.refl⟩
  | head answers _ inductionHypothesis =>
    obtain ⟨past, same, reached⟩ := inductionHypothesis
    cases answers with
    | answer asks line rest =>
      exact ⟨.text line :: past, congrArg (Line.text line :: ·) same,
        ReflTransGen.head (.answer asks line past) reached⟩

/-- Where no line is left, a session ends. -/
theorem exists_ends (scope : Scope) (reply : Reply) :
    ∃ result, Ends scope ⟨reply, []⟩ result [] := by
  cases next : reply.turn.next scope with
  | inl result => exact ⟨result, .complete next []⟩
  | inr question => exact ⟨.ok false, .exhausted next⟩

/-- What is loaded at a point is what is loaded at the end of a session with the lines before it. -/
theorem Reaches.circuit_eq {start point last : Point} {past : List Line}
    {result : Except Failure Bool} {rest : List Line}
    (reaches : Reaches directory scope ⟨start.reply, past⟩ ⟨point.reply, []⟩)
    (whole : Reaches directory scope ⟨start.reply, past⟩ last)
    (ends : Ends scope last result rest) :
    point.reply.circuit = last.reply.circuit := by
  obtain ⟨_, stops⟩ := exists_ends scope point.reply
  obtain ⟨outcome, converses, _, circuit, _⟩ := exists_outcome_of_reaches reaches stops "" []
  obtain ⟨other, wholeConverses, _, wholeCircuit, _⟩ := exists_outcome_of_reaches whole ends "" []
  have same : outcome = other := congrArg Prod.fst (converses.symm.trans wholeConverses)
  rw [← circuit, same, wholeCircuit]

end Menu

end Combinational
