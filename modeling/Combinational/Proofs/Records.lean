/-
This file states what loading a text leaves in the log.

The steps of loading are taken once more, now with the records that they leave on their way. The
counts are recorded once they are accepted. The gates are wired one after the other, and a Not gate
with more than one source is warned about once it is wired, so a source that does not exist stops
the warnings at its gate. The circuit is recorded last, when nothing can fail any more.

The records of this run are the ones that loading returns with its outcome.
-/

import Combinational.Proofs.Loading
import Mathlib.Data.List.TakeWhile

namespace Combinational.Lcf

/-! ### Steps that leave records -/

/-- A computation that adds records to the log. Those added before a failure stay in the log. -/
abbrev Logged (Item : Type) : Type :=
  ExceptT LoadError (StateT (List Log.Record) (Except Misuse)) Item

namespace Logged

variable {Item First Second : Type}

/-- The outcome of a computation, and the log after it. -/
def trace (computation : Logged Item) (records : List Log.Record) :
    Except Misuse (Except LoadError Item × List Log.Record) :=
  computation.run.run records

/-- A step that adds no record. -/
def silent (step : Attempt Item) : Logged Item :=
  ExceptT.mk fun records => step.run.map (·, records)

/-- Adds records to the log. -/
def log (added : List Log.Record) : Logged Unit :=
  modify (· ++ added)

theorem trace_bind (first : Logged First) (next : First → Logged Second)
    (records : List Log.Record) :
    (first >>= next).trace records = first.trace records >>= fun reached =>
      match reached.1 with
      | .ok value => (next value).trace reached.2
      | .error error => .ok (.error error, reached.2) := by
  show (first.trace records >>= fun reached =>
    (ExceptT.bindCont next reached.1).run reached.2) = _
  congr 1
  funext ⟨outcome, later⟩
  cases outcome <;> rfl

/-- After a step with a known outcome, the log is as before. -/
theorem trace_silent_bind (outcome : Except LoadError First) (next : First → Logged Second)
    (records : List Log.Record) :
    (silent (report outcome) >>= next).trace records = match outcome with
      | .ok value => (next value).trace records
      | .error error => .ok (.error error, records) := by
  rw [trace_bind]
  cases outcome <;> rfl

theorem trace_log_bind (added : List Log.Record) (next : Unit → Logged Second)
    (records : List Log.Record) :
    (log added >>= next).trace records = (next ()).trace (records ++ added) := rfl

end Logged

open Logged

/-! ### Loading with records -/

/-- Reads a text up to the acceptance of its counts: the counts, and the gate lines. -/
def readCounts (text : String) : Attempt (Nat × Nat × List (List Char)) :=
  if isDescription text.toList then do
    let inputs := parseIndex (← entry (lines text.toList) 0)
    if inputs = 0 ∨ maxInputs < inputs then
      throw (.inputCount inputs)
    else
      let gates := parseIndex (← entry (lines text.toList) 1)
      if gates = 0 ∨ maxGates < gates then
        throw (.gateCount gates)
      else
        let gateLines ← slice (lines text.toList) 2 (lines text.toList).length
        if gateLines.length ≠ gates then
          throw (.gateLines gates gateLines.length)
        else
          return (inputs, gates, gateLines)
  else
    throw .malformed

/-- Connects the gates of some statements, the first of which stands at a position. The warning
about a gate follows its last source. -/
def connectLogged (description : Description) :
    (position : Nat) → List Statement → Circuit → Logged Circuit
  | _, [], circuit => pure circuit
  | position, statement :: others, circuit => do
    let gate ← silent (ExceptT.lift (circuit.gate position))
    let connected ←
      silent (statement.sources.foldlM (connectSource description (position + 1) gate) circuit)
    log (unusedSourcesRecord? (position + 1) statement).toList
    connectLogged description (position + 1) others connected

/-- Builds the circuit of a description with accepted counts. -/
def constructLogged (description : Description) : Logged Circuit := do
  let wired ← connectLogged description 0 description.statements (place description)
  let circuit ← silent (finish wired)
  log [builtRecord circuit]
  return circuit

/-- Loads the circuit that a text describes. -/
def loadLogged (text : String) : Logged Circuit := do
  let (inputs, gates, gateLines) ← silent (readCounts text)
  -- The statements are not known yet, and the record does not need them.
  log [countsRecord { inputs, gates, statements := [] }]
  let statements ← silent (gateLines.mapM parseStatement)
  constructLogged { inputs, gates, statements }

/-! ### The run -/

open Circuit

theorem trace_connectLogged {description : Description}
    (small : description.inputs + description.gates < UInt32.size) (statements : List Statement)
    (before : List (GateKind × List DeviceId))
    (counted : description.gates = before.length + statements.length)
    (records : List Log.Record) :
    (connectLogged description before.length statements
      (arrangement description.inputs (before ++ statements.map bare))).trace records =
    .ok ((checkStatements description (before.length + 1) statements).1.map fun _ =>
        arrangement description.inputs (before ++ statements.map (wire description.inputs)),
      records ++ (checkStatements description (before.length + 1) statements).2) := by
  -- Each statement adds to the gates that are wired and to the log, so both vary in the induction.
  induction statements generalizing before records with
  | nil =>
    unfold connectLogged checkStatements
    rw [List.append_nil]
    rfl
  | cons statement others inductionHypothesis =>
    obtain ⟨listed, connects⟩ := connectSources_arrangement small statement others before counted
    have reads : silent (ExceptT.lift ((arrangement description.inputs
        (before ++ (statement :: others).map bare)).gate before.length)) =
          silent (report (.ok (.ofIndex (description.inputs + before.length)))) := by
      rw [listed]
      rfl
    unfold connectLogged checkStatements
    rw [reads, trace_silent_bind]
    simp only
    rw [connects, trace_silent_bind]
    cases checkSources description (before.length + 1) statement with
    | error error =>
      simp only
      rw [List.append_nil]
      rfl
    | ok _ =>
      rw [List.length_cons] at counted
      have wired := inductionHypothesis (before ++ [wire description.inputs statement]) (by
        rw [List.length_append, List.length_singleton]
        omega) (records ++ (unusedSourcesRecord? (before.length + 1) statement).toList)
      rw [List.length_append, List.length_singleton, List.append_assoc records,
        List.append_assoc _ _ (others.map (wire description.inputs))] at wired
      exact wired

theorem trace_constructLogged {description : Description} (counted : description.IsCounted)
    (connected : ∀ statement ∈ description.statements, statement.sources ≠ [])
    (records : List Log.Record) :
    (constructLogged description).trace records =
      .ok ((buildCounted description).1, records ++ (buildCounted description).2) := by
  have room := counted.small
  have small : description.inputs + description.gates < UInt32.size := by
    rw [← counted.statements]
    omega
  have connects : (connectLogged description 0 description.statements
      (place description)).trace records =
      .ok ((checkStatements description 1 description.statements).1.map fun _ =>
        wired description.inputs description.statements,
        records ++ (checkStatements description 1 description.statements).2) := by
    rw [place_eq, wired_eq]
    exact trace_connectLogged small description.statements []
      (by rw [counted.statements]; exact (Nat.zero_add _).symm) records
  unfold constructLogged buildCounted
  rw [trace_bind, connects]
  rcases checks : checkStatements description 1 description.statements with ⟨outcome, warnings⟩
  cases outcome with
  | error error => rfl
  | ok _ =>
    have declared := checkStatements_eq_ok_iff.mp (congrArg Prod.fst checks)
    have finishes := finish_wired room (counted.areDefined_iff.mpr declared) connected
    show Logged.trace (silent (finish (wired description.inputs description.statements)) >>= _)
      (records ++ warnings) = _
    rw [finishes, trace_silent_bind]
    cases assemble description.inputs description.statements with
    | error error => rfl
    | ok circuit =>
      simp only
      rw [trace_log_bind, List.append_assoc]
      rfl

/-- The counts are accepted or refused as they are when a description is built. -/
theorem readCounts_text (document : Document) :
    readCounts document.text = report ((checkCounts document.description).map fun _ =>
      (document.description.inputs, document.description.gates,
        (document.first :: document.others).map GateLine.characters)) := by
  have inputs : entry document.lines 0 = pure document.inputs.digits := rfl
  have gates : entry document.lines 1 = pure document.gates.digits := rfl
  have length : ((document.first :: document.others).map GateLine.characters).length =
      document.description.statements.length := by
    rw [Document.description, List.length_map, List.length_map]
  have inputsNumber : parseIndex document.inputs.digits = document.description.inputs :=
    parseIndex_digits document.inputs
  have gatesNumber : parseIndex document.gates.digits = document.description.gates :=
    parseIndex_digits document.gates
  unfold readCounts checkCounts
  rw [if_pos (isDescription_text document), lines_document_text]
  simp only [inputs, gates, slice_gateLines, pure_bind, inputsNumber, gatesNumber, length]
  by_cases refused : document.description.inputs = 0 ∨ maxInputs < document.description.inputs
  · rw [if_pos refused, if_pos refused]
    rfl
  · rw [if_neg refused, if_neg refused]
    by_cases beyond : document.description.gates = 0 ∨ maxGates < document.description.gates
    · rw [if_pos beyond, if_pos beyond]
      rfl
    · rw [if_neg beyond, if_neg beyond]
      by_cases differ : document.description.statements.length ≠ document.description.gates
      · rw [if_pos differ, if_pos differ]
        rfl
      · rw [if_neg differ, if_neg differ]
        rfl

/-- The run with records ends with the outcome and the records of loading. -/
theorem trace_loadLogged (text : String) : (loadLogged text).trace [] = .ok (load text) := by
  cases read : read? text with
  | none =>
    have stops : readCounts text = report (.error .malformed) := by
      rw [readCounts, isDescription_of_read?_eq_none read]
      rfl
    unfold loadLogged load
    rw [stops, trace_silent_bind, read]
  | some description =>
    obtain ⟨document, rfl, rfl⟩ := read?_eq_some_iff.mp read
    have loads : load document.text = build document.description := by
      rw [load, read]
    rw [loads]
    unfold loadLogged build
    rw [readCounts_text, trace_silent_bind]
    cases counts : checkCounts document.description with
    | error error => rfl
    | ok _ =>
      have counted := checkCounts_eq_ok_iff.mp counts
      have statements : ((document.first :: document.others).map GateLine.characters).mapM
          parseStatement = report (.ok document.description.statements) :=
        mapM_parseStatement document
      show Logged.trace (log [countsRecord document.description] >>= _) [] = _
      rw [trace_log_bind, statements, trace_silent_bind]
      exact trace_constructLogged counted document.sources_ne_nil [countsRecord _]

/-! ### Statements that are wired -/

namespace Description

/-- Whether the sources of a statement exist. -/
def accepts (description : Description) (statement : Statement) : Bool :=
  statement.sources.all (Source.isDefined description.inputs description.gates)

/-- The statements before the first one with a source that does not exist. -/
def acceptedStatements (description : Description) : List Statement :=
  description.statements.takeWhile description.accepts

variable {description : Description}

theorem accepts_iff {statement : Statement} : description.accepts statement = true ↔
    ∀ source ∈ statement.sources, description.Declares source := by
  unfold accepts Declares
  exact List.all_eq_true

theorem acceptedStatements_of_declared
    (declared : ∀ statement ∈ description.statements, ∀ source ∈ statement.sources,
      description.Declares source) : description.acceptedStatements = description.statements :=
  List.takeWhile_eq_self_iff.mpr fun statement listed => accepts_iff.mpr (declared statement listed)

theorem acceptedStatements_of_missing {earlier later : List Statement} {statement : Statement}
    {before after : List Source} {source : Source}
    (statements : description.statements = earlier ++ statement :: later)
    (sources : statement.sources = before ++ source :: after)
    (missing : ¬ description.Declares source)
    (declared : ∀ other ∈ earlier, ∀ source ∈ other.sources, description.Declares source) :
    description.acceptedStatements = earlier := by
  have refused : ¬ description.accepts statement = true := by
    intro accepted
    refine missing (accepts_iff.mp accepted source ?_)
    rw [sources]
    exact List.mem_append_right _ List.mem_cons_self
  have passes : ∀ other ∈ earlier, description.accepts other = true := fun other member =>
    accepts_iff.mpr (declared other member)
  rw [acceptedStatements, statements, List.takeWhile_append_of_pos passes,
    List.takeWhile_cons_of_neg refused, List.append_nil]

end Description

/-! ### Warnings -/

/-- Whether a statement gives a Not gate more than one source. -/
def HasUnusedSources (numbered : Statement × Nat) : Prop :=
  numbered.1.kind = .not ∧ 1 < numbered.1.sources.length

instance : DecidablePred HasUnusedSources := fun numbered =>
  inferInstanceAs (Decidable (numbered.1.kind = .not ∧ 1 < numbered.1.sources.length))

/-- The warning about a gate, with its number and the number of its sources. -/
def warning (numbered : Statement × Nat) : Log.Record where
  level := .warn
  message := "Gate " ++ numbered.2.repr ++ " is a Not gate with " ++
    numbered.1.sources.length.repr ++ " inputs: only the first one is used"

/-- The gates are warned about in their order, up to the first statement that is refused. -/
theorem records_checkStatements (description : Description) (gate : Nat)
    (statements : List Statement) : (checkStatements description gate statements).2 =
      (((statements.takeWhile description.accepts).zipIdx gate).filter HasUnusedSources).map
        warning := by
  induction statements generalizing gate with
  | nil => rfl
  | cons statement others inductionHypothesis =>
    rw [checkStatements]
    cases checks : checkSources description gate statement with
    | error error =>
      have refused : ¬ description.accepts statement = true := by
        rw [Description.accepts_iff, ← checkSources_eq_ok_iff, checks]
        intro equal
        cases equal
      rw [List.takeWhile_cons_of_neg refused]
      rfl
    | ok _ =>
      have accepted : description.accepts statement = true :=
        Description.accepts_iff.mpr (checkSources_eq_ok_iff.mp checks)
      rw [List.takeWhile_cons_of_pos accepted, List.zipIdx_cons]
      simp only
      rw [inductionHypothesis]
      by_cases unused : HasUnusedSources (statement, gate)
      · have warns : unusedSourcesRecord? gate statement = some (warning (statement, gate)) :=
          if_pos unused
        rw [warns, List.filter_cons_of_pos (by simpa using unused), List.map_cons]
        rfl
      · have silent : unusedSourcesRecord? gate statement = none := if_neg unused
        rw [silent, List.filter_cons_of_neg (by simpa using unused)]
        rfl

/-! ### Refused counts -/

theorem missingSource_injective {gate other : Nat} {source otherSource : Source}
    (same : missingSource gate source = missingSource other otherSource) :
    gate = other ∧ source = otherSource := by
  cases source <;> cases otherSource <;> cases same <;> exact ⟨rfl, rfl⟩

/-- A description whose counts are refused leaves no record. -/
theorem build_of_not_isCounted {description : Description} (refused : ¬ description.IsCounted) :
    ∃ error, build description = (.error error, []) ∧ error.category = .range := by
  unfold build
  cases counts : checkCounts description with
  | ok _ => exact absurd (checkCounts_eq_ok_iff.mp counts) refused
  | error error =>
    refine ⟨error, rfl, ?_⟩
    unfold checkCounts at counts
    split at counts
    · obtain rfl := Except.error.inj counts
      rfl
    · split at counts
      · obtain rfl := Except.error.inj counts
        rfl
      · split at counts
        · obtain rfl := Except.error.inj counts
          rfl
        · cases counts

section Counted

variable {description : Description} (counted : description.IsCounted)

include counted

/-- Once the counts are accepted, only sources and loops are left to be refused. -/
theorem Verdict.category_of_isCounted {error : LoadError}
    (verdict : Verdict description (.error error)) :
    error.category = .reference ∨ error.category = .topology := by
  cases verdict with
  | inputCount refused => exact absurd counted.inputs refused
  | gateCount _ refused => exact absurd counted.gates refused
  | gateLines _ _ refused => exact absurd counted.statements refused
  | missingSource =>
    rename_i source _ _ _ _ _ _
    cases source <;> exact Or.inl rfl
  | noOutput | combinationalLoop => exact Or.inr rfl

theorem Verdict.acceptedStatements_of_missing {number : Nat} {source : Source}
    (verdict : Verdict description (.error (Lcf.missingSource number source))) :
    description.acceptedStatements = description.statements.take (number - 1) := by
  generalize reported : Lcf.missingSource number source = error at verdict
  cases verdict with
  | inputCount refused => exact absurd counted.inputs refused
  | gateCount _ refused => exact absurd counted.gates refused
  | gateLines _ _ refused => exact absurd counted.statements refused
  | missingSource _ statements sources missing declared =>
    obtain ⟨rfl, rfl⟩ := missingSource_injective reported
    rw [Description.acceptedStatements_of_missing statements sources missing declared, statements,
      Nat.add_sub_cancel, List.take_left]
  | noOutput => exact absurd reported (missingSource_ne _ _).2
  | combinationalLoop => cases source <;> cases reported

theorem Verdict.acceptedStatements_of_declared {outcome : Except LoadError Circuit}
    (verdict : Verdict description outcome)
    (found : ∀ number source, outcome ≠ .error (Lcf.missingSource number source)) :
    description.acceptedStatements = description.statements := by
  cases verdict with
  | inputCount refused => exact absurd counted.inputs refused
  | gateCount _ refused => exact absurd counted.gates refused
  | gateLines _ _ refused => exact absurd counted.statements refused
  | missingSource => exact absurd rfl (found _ _)
  | noOutput _ declared | combinationalLoop _ declared | loaded _ declared =>
    exact Description.acceptedStatements_of_declared declared

theorem Verdict.counts_of_ok {circuit : Circuit} (verdict : Verdict description (.ok circuit)) :
    circuit.inputCount = description.inputs ∧
    circuit.outputCount = (Statement.unread description.statements).length ∧
    circuit.gateCount = description.gates := by
  cases verdict with
  | loaded _ _ _ _ assembled =>
    have inputs := congrArg List.length assembled.inputs_eq
    have outputs := congrArg List.length assembled.outputs_eq
    have gates := congrArg List.length assembled.gates_eq
    rw [Array.length_toList, List.length_map] at inputs outputs gates
    rw [List.length_range] at inputs
    rw [List.length_range'] at outputs gates
    exact ⟨inputs, outputs, gates.trans counted.statements⟩

theorem records_build : (build description).2 = countsRecord description ::
    (((description.acceptedStatements.zipIdx 1).filter HasUnusedSources).map warning ++
      match (build description).1 with
      | .ok circuit => [builtRecord circuit]
      | .error _ => []) := by
  have warnings := records_checkStatements description 1 description.statements
  rw [← Description.acceptedStatements] at warnings
  unfold build
  rw [checkCounts_eq_ok_iff.mpr counted, ← warnings]
  unfold buildCounted
  rcases checkStatements description 1 description.statements with ⟨_ | _, records⟩
  · simp
  · cases assemble description.inputs description.statements <;> simp

end Counted

/-! ### Main statement -/

/-- What a description with accepted counts leaves in the log, and how it goes with the outcome. -/
structure Description.Logs (description : Description) (outcome : Except LoadError Circuit)
    (records : List Log.Record) : Prop where
  /-- The counts, the warnings in the order of the gates, and the circuit if there is one. -/
  records_eq : records = countsRecord description ::
    (((description.acceptedStatements.zipIdx 1).filter HasUnusedSources).map warning ++
      match outcome with
      | .ok circuit => [builtRecord circuit]
      | .error _ => [])
  /-- The warnings end before the gate whose source is reported as missing. -/
  accepted_of_missing : ∀ number source, outcome = .error (missingSource number source) →
    description.acceptedStatements = description.statements.take (number - 1)
  /-- Without a missing source, all the gates may be warned about. -/
  accepted_of_declared : (∀ number source, outcome ≠ .error (missingSource number source)) →
    description.acceptedStatements = description.statements
  /-- The record of the circuit has the declared numbers, and the number of gates that no gate
  reads. -/
  counts_of_ok : ∀ circuit, outcome = .ok circuit → circuit.inputCount = description.inputs ∧
    circuit.outputCount = (Statement.unread description.statements).length ∧
    circuit.gateCount = description.gates

theorem logs_build {description : Description} (counted : description.IsCounted) :
    description.Logs (build description).1 (build description).2 where
  records_eq := records_build counted
  accepted_of_missing number source missing := by
    have verdict := verdict_build description
    rw [missing] at verdict
    exact verdict.acceptedStatements_of_missing counted
  accepted_of_declared found :=
    (verdict_build description).acceptedStatements_of_declared counted found
  counts_of_ok circuit built := by
    have verdict := verdict_build description
    rw [built] at verdict
    exact verdict.counts_of_ok counted

/-- A text is refused for its form or its counts, without any record, or it is the text of a
document with accepted counts. -/
theorem refused_or_isCounted (text : String) :
    (∃ error, load text = (.error error, []) ∧
      (error.category = .format ∨ error.category = .range)) ∨
    ∃ document : Document, document.text = text ∧ document.description.IsCounted := by
  cases read : read? text with
  | none =>
    refine .inl ⟨.malformed, ?_, .inl rfl⟩
    rw [load, read]
  | some description =>
    obtain ⟨document, same, rfl⟩ := read?_eq_some_iff.mp read
    by_cases counted : document.description.IsCounted
    · exact .inr ⟨document, same, counted⟩
    · obtain ⟨error, built, range⟩ := build_of_not_isCounted counted
      refine .inl ⟨error, ?_, .inr range⟩
      rw [load, read]
      exact built

end Combinational.Lcf
