/-
This file tells what a command of the menu makes of the lines that follow it.

A command that gets all its answers is complete and may have changed what is loaded: that is its
event. Which circuit is loaded, and what its pins hold, follows from the events alone. The path of
the last load decides the circuit, and the last event of all decides the pins. A command that is
interrupted has no event, and up to its interruption nothing has changed.
-/

import Combinational.Proofs.Dialogues
import Combinational.Proofs.Readiness

namespace Combinational.Menu

open Relation

/-! ### Events -/

/-- What a complete command did to the loaded circuit. -/
inductive Event
  /-- A path was read, and its file loaded if that was possible. -/
  | load (path : String)
  /-- The pins received these values, and the circuit was simulated. -/
  | simulation (values : List Bool)
  /-- The table of all assignments was shown. -/
  | truthTable
deriving DecidableEq

/-- The path that an event has read. -/
def Event.path? : Event → Option String
  | load path => some path
  | simulation _ | truthTable => none

/-- The values that a number of pins hold when this is the last event. -/
def heldAfter (count : Nat) : Option Event → List Bool
  | some (.simulation values) => values
  | some .truthTable => List.replicate count true
  | some (.load _) | none => List.replicate count false

/-- What is loaded after some events. -/
def circuitAfter (directory : Directory) (events : List Event) : Option Circuit := do
  let path ← (events.filterMap Event.path?).getLast?
  let circuit ← (directory.load path).1.toOption
  return circuit.assigned (heldAfter circuit.inputCount events.getLast?)

/-! ### Answers -/

/-- Why a command did not get all its answers. -/
inductive Interruption
  /-- No line was left. -/
  | endOfInput
  /-- A line was not text. -/
  | invalidText
deriving DecidableEq

/-- The result of an interrupted command. -/
def Interruption.result : Interruption → Except Failure Bool
  | endOfInput => .ok false
  | invalidText => .error (.line .invalidText)

/-- The value that a line gives for an input pin. -/
def pinValue? (line : String) : Option Bool :=
  match Text.trim line with
  | "0" => some false
  | "1" => some true
  | _ => none

/-- The values that some lines give for a number of input pins, and the lines that are left. Lines
that give no value are passed over. -/
def pinValues : (needed : Nat) → List Line → Except Interruption (List Bool) × List Line
  | 0, lines => (.ok [], lines)
  | _ + 1, [] => (.error .endOfInput, [])
  | _ + 1, .garbled :: rest => (.error .invalidText, rest)
  | needed + 1, .text line :: rest =>
    match pinValue? line with
    | some value => ((pinValues needed rest).1.map (value :: ·), (pinValues needed rest).2)
    | none => pinValues (needed + 1) rest

/-- The event of a command that is followed by some lines, if it has one, and the lines that are
left. The number of input pins is given if a circuit is loaded. -/
def attempt (pins : Option Nat) :
    Command → List Line → Except Interruption (Option Event) × List Line
  | .load, [] => (.error .endOfInput, [])
  | .load, .garbled :: rest => (.error .invalidText, rest)
  | .load, .text line :: rest => (.ok (some (.load (Text.trim line))), rest)
  | .simulation, lines =>
    match pins with
    | none => (.ok none, lines)
    | some count =>
      ((pinValues count lines).1.map fun values => some (.simulation values),
        (pinValues count lines).2)
  | .truthTable, lines => (.ok (pins.map fun _ => .truthTable), lines)
  | .exit, lines => (.ok none, lines)

theorem pinValues_zero (lines : List Line) : pinValues 0 lines = (.ok [], lines) := by
  cases lines <;> rfl

theorem length_of_pinValues {needed : Nat} {lines : List Line} {values : List Bool}
    (answered : (pinValues needed lines).1 = .ok values) : values.length = needed := by
  fun_induction pinValues needed lines generalizing values with
  | case1 =>
    obtain rfl := Except.ok.inj answered
    rfl
  | case2 | case3 => cases answered
  | case4 needed line rest value _ inductionHypothesis =>
    cases further : (pinValues needed rest).1 with
    | error interruption =>
      rw [further] at answered
      cases answered
    | ok others =>
      rw [further] at answered
      obtain rfl := Except.ok.inj answered
      rw [List.length_cons, inductionHypothesis further]
  | case5 needed line rest _ inductionHypothesis => exact inductionHypothesis answered

theorem length_pinValues_le (needed : Nat) (lines : List Line) :
    (pinValues needed lines).2.length ≤ lines.length := by
  fun_induction pinValues needed lines with
  | case1 | case2 => exact Nat.le_refl _
  | case3 => exact Nat.le_succ _
  | case4 needed line rest value _ inductionHypothesis
  | case5 needed line rest _ inductionHypothesis => exact inductionHypothesis.trans (Nat.le_succ _)

theorem length_attempt_le (pins : Option Nat) (command : Command) (lines : List Line) :
    (attempt pins command lines).2.length ≤ lines.length := by
  fun_cases attempt pins command lines with
  | case1 | case4 | case6 | case7 => exact Nat.le_refl _
  | case2 | case3 => exact Nat.le_succ _
  | case5 lines count => exact length_pinValues_le count lines

/-! ### What is loaded -/

section Loaded

variable {directory : Directory}

/-- A circuit that was loaded from a file is ready, and its pins are false. -/
theorem isReady_of_directory_load {path : String} {circuit : Circuit}
    (loads : (directory.load path).1 = .ok circuit) :
    circuit.IsReady ∧ circuit.assigned (List.replicate circuit.inputCount false) = circuit := by
  unfold Directory.load at loads
  split at loads
  · exact Circuit.isReady_of_load loads
  · cases loads

theorem circuitAfter_eq_some_iff {events : List Event} {circuit : Circuit} :
    circuitAfter directory events = some circuit ↔
      ∃ path loaded, (events.filterMap Event.path?).getLast? = some path ∧
        (directory.load path).1 = .ok loaded ∧
        circuit = loaded.assigned (heldAfter loaded.inputCount events.getLast?) := by
  simp only [circuitAfter, bind, Option.bind_eq_some_iff, pure, Option.some.injEq]
  constructor
  · rintro ⟨path, last, loaded, loads, rfl⟩
    refine ⟨path, loaded, last, ?_, rfl⟩
    cases answer : (directory.load path).1 with
    | error error =>
      rw [answer] at loads
      cases loads
    | ok other =>
      rw [answer] at loads
      rw [Option.some.inj loads]
  · rintro ⟨path, loaded, last, loads, rfl⟩
    exact ⟨path, last, loaded, by rw [loads]; rfl, rfl⟩

/-- Nothing is loaded exactly if no path has been read, or the last one that was names no file that
can be loaded. -/
theorem circuitAfter_eq_none_iff {events : List Event} :
    circuitAfter directory events = none ↔
      ∀ path, (events.filterMap Event.path?).getLast? = some path →
        ∃ error, (directory.load path).1 = .error error := by
  rw [Option.eq_none_iff_forall_ne_some]
  constructor
  · intro nothing path last
    cases answer : (directory.load path).1 with
    | error error => exact ⟨error, rfl⟩
    | ok loaded =>
      have something := circuitAfter_eq_some_iff.mpr ⟨path, loaded, last, answer, rfl⟩
      exact absurd something (nothing _)
  · intro fails circuit something
    obtain ⟨path, loaded, last, loads, _⟩ := circuitAfter_eq_some_iff.mp something
    obtain ⟨error, failed⟩ := fails path last
    rw [loads] at failed
    cases failed

theorem isReady_of_circuitAfter {events : List Event} {circuit : Circuit}
    (loaded : circuitAfter directory events = some circuit) : circuit.IsReady := by
  obtain ⟨path, original, _, loads, rfl⟩ := circuitAfter_eq_some_iff.mp loaded
  exact (isReady_of_directory_load loads).1.assigned _

theorem circuitAfter_load (directory : Directory) (events : List Event) (path : String) :
    circuitAfter directory (events ++ [.load path]) = (directory.load path).1.toOption := by
  have last : ((events ++ [Event.load path]).filterMap Event.path?).getLast? = some path := by
    rw [List.filterMap_append]
    exact List.getLast?_concat
  rw [circuitAfter, last, List.getLast?_concat]
  cases answer : (directory.load path).1 with
  | error error =>
    simp only [bind, Option.bind_some, answer]
    rfl
  | ok circuit =>
    simp only [bind, Option.bind_some, answer, Except.toOption, heldAfter, pure]
    rw [(isReady_of_directory_load answer).2]

/-- An event other than a load changes the pins of the loaded circuit only. -/
theorem circuitAfter_of_path_eq_none {events : List Event} {circuit : Circuit}
    (loaded : circuitAfter directory events = some circuit) (event : Event)
    (other : event.path? = none) :
    circuitAfter directory (events ++ [event]) =
      some (circuit.assigned (heldAfter circuit.inputCount (some event))) := by
  obtain ⟨path, original, last, loads, rfl⟩ := circuitAfter_eq_some_iff.mp loaded
  refine circuitAfter_eq_some_iff.mpr ⟨path, original, ?_, loads, ?_⟩
  · rw [List.filterMap_append, List.filterMap_cons_none other, List.filterMap_nil,
      List.append_nil]
    exact last
  · rw [List.getLast?_concat]
    exact Circuit.assigned_withPins ..

end Loaded

/-! ### Replies of ready circuits -/

theorem showSimulation_eq {circuit : Circuit} (ready : circuit.IsReady) {values : List Bool}
    (length : values.length = circuit.inputCount) :
    showSimulation circuit values =
      { text := "Simulation Result:\n" ++ circuit.report values ++ "\n"
        circuit := some (circuit.assigned values)
        turn := .done true } := by
  unfold showSimulation
  rw [ready.setInputs_eq length]
  simp only [ready.evaluateOnce_eq length]

theorem showTruthTable_eq {circuit : Circuit} (ready : circuit.IsReady) :
    showTruthTable circuit =
      { text := "Truth table:\n" ++ circuit.fullTable.text ++ "\n"
        circuit := some (circuit.assigned (List.replicate circuit.inputCount true))
        turn := .done true } := by
  unfold showTruthTable
  rw [ready.evaluateAll_eq]

theorem answerPin_eq (circuit : Option Circuit) (given : List Bool) (line : String) :
    answerPin circuit given line =
      match pinValue? line with
      | some value => askPins circuit (given ++ [value])
      | none => {
          text := "The value of input pin must be 0/1\n"
          circuit
          turn := .ask (.pin given) } := by
  unfold answerPin pinValue?
  split <;> simp_all only

/-! ### The dialogue about the pins -/

/-- A reply asks for the value of an input pin of a circuit, after some other values. -/
structure Asks (circuit : Circuit) (given : List Bool) (reply : Reply) : Prop where
  circuit_eq : reply.circuit = some circuit
  turn_eq : reply.turn = .ask (.pin given)

theorem asks_askPins (circuit : Circuit) (given : List Bool)
    (lacking : given.length < circuit.inputCount) :
    Asks circuit given (askPins (some circuit) given) := by
  simp only [askPins, if_pos lacking]
  exact ⟨rfl, rfl⟩

theorem asks_of_pinValue_eq_none {circuit : Circuit} {line : String}
    (answer : pinValue? line = none) (given : List Bool) :
    Asks circuit given (answerPin (some circuit) given line) := by
  rw [answerPin_eq, answer]
  exact ⟨rfl, rfl⟩

theorem asks_of_pinValue_eq_some {circuit : Circuit} {line : String} {value : Bool}
    (answer : pinValue? line = some value) (given : List Bool)
    (lacking : given.length + 1 < circuit.inputCount) :
    Asks circuit (given ++ [value]) (answerPin (some circuit) given line) := by
  rw [answerPin_eq, answer]
  exact asks_askPins circuit _ (by rwa [List.length_append])

section Asking

variable (directory : Directory) (scope : Scope) {circuit : Circuit}

namespace Asks

variable {given : List Bool} {reply : Reply} (asks : Asks circuit given reply)

include asks

theorem next_eq : reply.turn.next scope = .inr (.pin given) := by
  rw [asks.turn_eq]
  rfl

theorem reply_eq (line : String) :
    replyTo directory reply.circuit line (.pin given) = answerPin (some circuit) given line := by
  rw [asks.circuit_eq]
  rfl

theorem answers (line : String) (rest : List Line) :
    Answers directory scope ⟨reply, .text line :: rest⟩
      ⟨answerPin (some circuit) given line, rest⟩ := by
  have answers : Answers directory scope ⟨reply, .text line :: rest⟩ _ :=
    .answer (asks.next_eq scope) line rest
  rwa [asks.reply_eq] at answers

end Asks

/-- A dialogue about pins that starts at some point, after some given values, and what becomes of
it. Nothing that is loaded has changed before the last value. -/
inductive Dialogue (directory : Directory) (scope : Scope) (circuit : Circuit)
    (given : List Bool) (start : Point) : Except Interruption (List Bool) × List Line → Prop
  /-- The session ends at a question. -/
  | interrupted {interruption : Interruption} {point : Point} {rest : List Line}
      (reaches : Reaches directory scope start point)
      (kept : point.reply.circuit = some circuit)
      (ends : Ends scope point interruption.result rest) :
    Dialogue directory scope circuit given start (.error interruption, rest)
  /-- A line gives the last value. -/
  | answered {values earlier : List Bool} {last : Reply} {line : String} {value : Bool}
      {rest : List Line} (split : given ++ values = earlier ++ [value])
      (asks : Asks circuit earlier last) (gives : pinValue? line = some value)
      (reaches : Reaches directory scope start ⟨last, .text line :: rest⟩) :
    Dialogue directory scope circuit given start (.ok values, rest)

section Dialogues

variable {directory scope} {given : List Bool} {start next : Point}
  {result : Except Interruption (List Bool)} {rest : List Line}

theorem Dialogue.head (answers : Answers directory scope start next)
    (dialogue : Dialogue directory scope circuit given next (result, rest)) :
    Dialogue directory scope circuit given start (result, rest) := by
  cases dialogue with
  | interrupted reaches kept ends => exact .interrupted (reaches.head answers) kept ends
  | answered split asks gives reaches => exact .answered split asks gives (reaches.head answers)

/-- A value that was given before the dialogue may be counted among its values. -/
theorem Dialogue.cons {value : Bool}
    (dialogue : Dialogue directory scope circuit (given ++ [value]) start (result, rest)) :
    Dialogue directory scope circuit given start (result.map (value :: ·), rest) := by
  cases dialogue with
  | interrupted reaches kept ends => exact .interrupted reaches kept ends
  | answered split asks gives reaches =>
    rw [List.append_assoc] at split
    exact .answered split asks gives reaches

end Dialogues

/-- The lines decide about a dialogue that asks for pins. -/
theorem dialogue_of_asks {needed : Nat} {given : List Bool} {reply : Reply}
    (asks : Asks circuit given reply) (room : given.length + needed + 1 = circuit.inputCount)
    (lines : List Line) :
    Dialogue directory scope circuit given ⟨reply, lines⟩ (pinValues (needed + 1) lines) := by
  induction lines generalizing needed given reply with
  | nil => exact .interrupted ReflTransGen.refl asks.circuit_eq (.exhausted (asks.next_eq scope))
  | cons first rest inductionHypothesis =>
    cases first with
    | garbled =>
      exact .interrupted ReflTransGen.refl asks.circuit_eq (.garbled (asks.next_eq scope) rest)
    | text line =>
      have answers := asks.answers directory scope line rest
      unfold pinValues
      cases answer : pinValue? line with
      | none =>
        have dialogue := inductionHypothesis (asks_of_pinValue_eq_none answer given) room
        exact dialogue.head answers
      | some value =>
        cases needed with
        | zero =>
          simp only [pinValues_zero]
          exact .answered rfl asks answer ReflTransGen.refl
        | succ needed =>
          have lacking : given.length + 1 < circuit.inputCount := by omega
          have further : (given ++ [value]).length + needed + 1 = circuit.inputCount := by
            rw [List.length_append, List.length_singleton]
            omega
          have asksAgain := asks_of_pinValue_eq_some answer given lacking
          exact (inductionHypothesis asksAgain further).cons.head answers

end Asking

/-! ### Commands -/

section Commands

variable {directory : Directory} {events : List Event} {circuit : Option Circuit}
  (loaded : circuitAfter directory events = circuit) (scope : Scope) {command : Command}
  {lines rest : List Line}

include loaded

/-- A simulation of a loaded circuit is a dialogue about all its pins. -/
theorem dialogue_of_simulation {ready : Circuit} (some_eq : circuit = some ready)
    (lines : List Line) :
    Dialogue directory scope ready [] ⟨perform circuit .simulation, lines⟩
      (pinValues ready.inputCount lines) := by
  subst some_eq
  have positive := (isReady_of_circuitAfter loaded).pins.1
  obtain ⟨needed, count⟩ := Nat.exists_eq_add_of_le' positive
  have room : ([] : List Bool).length + needed + 1 = ready.inputCount := by
    rw [count, List.length_nil, Nat.zero_add]
  have dialogue := dialogue_of_asks directory scope (asks_askPins ready [] positive) room lines
  rwa [← count] at dialogue

/-- A simulation of a loaded circuit comes to the line that gives the last value, and the next reply
shows the outputs. -/
theorem reaches_of_simulation {ready : Circuit} (some_eq : circuit = some ready)
    {values : List Bool} (answered : pinValues ready.inputCount lines = (.ok values, rest)) :
    ∃ last line, Asks ready values.dropLast last ∧
      Reaches directory scope ⟨perform circuit .simulation, lines⟩ ⟨last, .text line :: rest⟩ ∧
      Answers directory scope ⟨last, .text line :: rest⟩ ⟨showSimulation ready values, rest⟩ := by
  have dialogue := dialogue_of_simulation loaded scope some_eq lines
  rw [answered] at dialogue
  cases dialogue with
  | @answered _ earlier last line value _ split asks gives reaches =>
    have answers := asks.answers directory scope line rest
    rw [answerPin_eq, gives] at answers
    simp only [← split, List.nil_append] at answers
    have enough : ¬ values.length < ready.inputCount := by
      rw [length_of_pinValues (congrArg Prod.fst answered)]
      exact Nat.lt_irrefl _
    simp only [askPins, if_neg enough] at answers
    have before : values.dropLast = earlier := by
      rw [← List.nil_append values, split, List.dropLast_concat]
    subst some_eq before
    exact ⟨last, line, asks, reaches, answers⟩

/-- A command that is complete replies with what is loaded after its event. -/
theorem reaches_of_attempt_eq_ok {event? : Option Event}
    (complete : attempt (circuit.map Circuit.inputCount) command lines = (.ok event?, rest)) :
    ∃ reply, Reaches directory scope ⟨perform circuit command, lines⟩ ⟨reply, rest⟩ ∧
      reply.turn = .done (command != .exit) ∧
      reply.circuit = circuitAfter directory (events ++ event?.toList) := by
  cases command with
  | exit =>
    obtain ⟨kept, rfl⟩ := Prod.mk.inj complete
    obtain rfl := Except.ok.inj kept
    exact ⟨_, ReflTransGen.refl, rfl, by rw [Option.toList_none, List.append_nil, loaded]; rfl⟩
  | truthTable =>
    obtain ⟨kept, rfl⟩ := Prod.mk.inj complete
    obtain rfl := Except.ok.inj kept
    refine ⟨_, ReflTransGen.refl, ?_⟩
    cases circuit with
    | none =>
      rw [Option.map_none, Option.map_none, Option.toList_none, List.append_nil, loaded]
      exact ⟨rfl, rfl⟩
    | some ready =>
      have shows := showTruthTable_eq (isReady_of_circuitAfter loaded)
      simp only [perform, Option.map_some, Option.getD_some, shows]
      exact ⟨rfl, (circuitAfter_of_path_eq_none loaded .truthTable rfl).symm⟩
  | load =>
    cases lines with
    | nil => cases complete
    | cons first left =>
      cases first with
      | garbled => cases complete
      | text line =>
        obtain ⟨kept, rfl⟩ := Prod.mk.inj complete
        obtain rfl := Except.ok.inj kept
        have answers : Answers directory scope ⟨perform circuit .load, .text line :: left⟩ _ :=
          .answer rfl line left
        refine ⟨_, ReflTransGen.single answers, ?_⟩
        simp only [Option.toList_some, circuitAfter_load, replyTo]
        cases directory.load (Text.trim line) with
        | mk answer log => cases answer <;> exact ⟨rfl, rfl⟩
  | simulation =>
    cases circuit with
    | none =>
      obtain ⟨kept, rfl⟩ := Prod.mk.inj complete
      obtain rfl := Except.ok.inj kept
      exact ⟨_, ReflTransGen.refl, rfl, by rw [Option.toList_none, List.append_nil, loaded]; rfl⟩
    | some ready =>
      have complete : ((pinValues ready.inputCount lines).1.map fun values =>
          some (Event.simulation values), (pinValues ready.inputCount lines).2) =
          (.ok event?, rest) := complete
      cases answered : pinValues ready.inputCount lines with
      | mk result left =>
        rw [answered] at complete
        obtain ⟨kept, rfl⟩ := Prod.mk.inj complete
        cases result with
        | error interruption => cases kept
        | ok values =>
          obtain rfl := Except.ok.inj kept
          obtain ⟨_, _, _, reaches, answers⟩ :=
            reaches_of_simulation loaded scope rfl answered
          refine ⟨_, reaches.tail answers, ?_⟩
          rw [showSimulation_eq (isReady_of_circuitAfter loaded)
            (length_of_pinValues (congrArg Prod.fst answered))]
          have after := circuitAfter_of_path_eq_none loaded (.simulation values) rfl
          exact ⟨rfl, after.symm⟩

/-- An interrupted command has changed nothing. -/
theorem reaches_of_attempt_eq_error {interruption : Interruption}
    (stops : attempt (circuit.map Circuit.inputCount) command lines = (.error interruption, rest)) :
    ∃ point, Reaches directory scope ⟨perform circuit command, lines⟩ point ∧
      point.reply.circuit = circuit ∧ Ends scope point interruption.result rest := by
  cases command with
  | exit | truthTable => cases (Prod.mk.inj stops).1
  | load =>
    cases lines with
    | nil =>
      cases stops
      exact ⟨_, ReflTransGen.refl, rfl, .exhausted rfl⟩
    | cons first left =>
      cases first with
      | text line => cases (Prod.mk.inj stops).1
      | garbled =>
        cases stops
        exact ⟨_, ReflTransGen.refl, rfl, .garbled rfl _⟩
  | simulation =>
    cases circuit with
    | none => cases (Prod.mk.inj stops).1
    | some ready =>
      have dialogue := dialogue_of_simulation loaded scope rfl lines
      have stops : ((pinValues ready.inputCount lines).1.map fun values =>
          some (Event.simulation values), (pinValues ready.inputCount lines).2) =
          (.error interruption, rest) := stops
      cases decided : pinValues ready.inputCount lines with
      | mk result left =>
        rw [decided] at stops dialogue
        cases dialogue with
        | answered => cases (Prod.mk.inj stops).1
        | @interrupted _ point _ reaches kept ends =>
          cases stops
          exact ⟨point, reaches, kept, ends⟩

end Commands

end Combinational.Menu
