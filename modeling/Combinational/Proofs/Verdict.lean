/-
This file states which circuit or error a description gives.

The verdict lists the rules in the order in which they are tried: each one applies only if those
before it do not. A missing source is the first one, gate by gate and from left to right. Building a
description follows the verdict.
-/

import Combinational.Lcf.Loading
import Combinational.Proofs.Assembled

namespace Combinational.Lcf

open Relation Circuit

/-! ### The rules -/

namespace Description

/-- The counts of the description are in their bounds and met by its statements. -/
structure IsCounted (description : Description) : Prop where
  inputs : 1 ≤ description.inputs ∧ description.inputs ≤ maxInputs
  gates : 1 ≤ description.gates ∧ description.gates ≤ maxGates
  statements : description.statements.length = description.gates

/-- Whether the pin or gate that a source names is among those declared. -/
def Declares (description : Description) (source : Source) : Prop :=
  source.isDefined description.inputs description.gates = true

end Description

/-- What a description gives. -/
inductive Verdict (description : Description) : Except LoadError Circuit → Prop
  | inputCount
    (refused : ¬ (1 ≤ description.inputs ∧ description.inputs ≤ maxInputs)) :
    Verdict description (.error (.inputCount description.inputs))
  | gateCount
    (inputs : 1 ≤ description.inputs ∧ description.inputs ≤ maxInputs)
    (refused : ¬ (1 ≤ description.gates ∧ description.gates ≤ maxGates)) :
    Verdict description (.error (.gateCount description.gates))
  | gateLines
    (inputs : 1 ≤ description.inputs ∧ description.inputs ≤ maxInputs)
    (gates : 1 ≤ description.gates ∧ description.gates ≤ maxGates)
    (refused : description.statements.length ≠ description.gates) :
    Verdict description (.error (.gateLines description.gates description.statements.length))
  | missingSource
    {earlier later : List Statement} {statement : Statement}
    {before after : List Source} {source : Source}
    (counted : description.IsCounted)
    (statements : description.statements = earlier ++ statement :: later)
    (sources : statement.sources = before ++ source :: after)
    (missing : ¬ description.Declares source)
    (earlierDeclared : ∀ other ∈ earlier, ∀ source ∈ other.sources, description.Declares source)
    (beforeDeclared : ∀ source ∈ before, description.Declares source) :
    Verdict description (.error (missingSource (earlier.length + 1) source))
  | noOutput
    (counted : description.IsCounted)
    (declared : ∀ statement ∈ description.statements, ∀ source ∈ statement.sources,
      description.Declares source)
    (read : Statement.unread description.statements = []) :
    Verdict description (.error .noOutput)
  | combinationalLoop
    {number : Nat}
    (counted : description.IsCounted)
    (declared : ∀ statement ∈ description.statements, ∀ source ∈ statement.sources,
      description.Declares source)
    (unread : Statement.unread description.statements ≠ [])
    (loop : TransGen (Statement.Reads description.statements) number number) :
    Verdict description (.error (.combinationalLoop number))
  | loaded
    {circuit : Circuit}
    (counted : description.IsCounted)
    (declared : ∀ statement ∈ description.statements, ∀ source ∈ statement.sources,
      description.Declares source)
    (unread : Statement.unread description.statements ≠ [])
    (acyclic : Statement.IsAcyclic description.statements)
    (assembled : IsAssembled description.inputs description.statements circuit) :
    Verdict description (.ok circuit)

/-! ### Accepted counts -/

theorem checkCounts_eq_ok_iff {description : Description} :
    checkCounts description = .ok () ↔ description.IsCounted := by
  unfold checkCounts
  constructor
  · intro accepted
    split at accepted
    · cases accepted
    · split at accepted
      · cases accepted
      · split at accepted
        · cases accepted
        · exact ⟨by omega, by omega, by omega⟩
  · rintro ⟨inputs, gates, statements⟩
    rw [if_neg (by omega), if_neg (by omega), if_neg (not_not_intro statements)]

namespace Description

variable {description : Description} (counted : description.IsCounted)

include counted

/-- There is room for an output pin for each gate. -/
theorem IsCounted.small : description.inputs + description.statements.length +
    description.statements.length < UInt32.size := by
  have inputs : description.inputs ≤ 16 := counted.inputs.2
  have gates : description.gates ≤ 1000 := counted.gates.2
  have statements := counted.statements
  have size : UInt32.size = 4294967296 := rfl
  omega

theorem IsCounted.bounded :
    description.inputs + description.statements.length < UInt32.size :=
  Nat.lt_of_le_of_lt (Nat.le_add_right _ _) counted.small

theorem IsCounted.statements_ne_nil : description.statements ≠ [] := by
  intro nothing
  have length := counted.statements
  rw [nothing, List.length_nil] at length
  have positive := counted.gates.1
  omega

theorem IsCounted.areDefined_iff :
    Statement.AreDefined description.inputs description.statements ↔
      ∀ statement ∈ description.statements, ∀ source ∈ statement.sources,
        description.Declares source := by
  unfold Statement.AreDefined Declares
  rw [counted.statements]

end Description

/-! ### Missing sources -/

theorem checkSources_eq_ok_iff {description : Description} {gate : Nat} {statement : Statement} :
    checkSources description gate statement = .ok () ↔
      ∀ source ∈ statement.sources, description.Declares source := by
  unfold checkSources Description.Declares
  cases found : statement.sources.find? fun source =>
      !source.isDefined description.inputs description.gates with
  | none =>
    rw [List.find?_eq_none] at found
    simpa using found
  | some source =>
    have listed := List.mem_of_find?_eq_some found
    have missing := List.find?_some found
    rw [Bool.not_eq_true'] at missing
    constructor
    · intro accepted
      cases accepted
    · intro declared
      rw [declared source listed] at missing
      cases missing

theorem checkSources_eq_error {description : Description} {gate : Nat} {statement : Statement}
    {error : LoadError} (refused : checkSources description gate statement = .error error) :
    ∃ before source after, statement.sources = before ++ source :: after ∧
      ¬ description.Declares source ∧ (∀ source ∈ before, description.Declares source) ∧
      error = missingSource gate source := by
  unfold checkSources at refused
  cases found : statement.sources.find? fun source =>
      !source.isDefined description.inputs description.gates with
  | none =>
    rw [found] at refused
    cases refused
  | some source =>
    rw [found] at refused
    obtain ⟨missing, before, after, sources, declared⟩ := List.find?_eq_some_iff_append.mp found
    refine ⟨before, source, after, sources, ?_, ?_, (Except.error.inj refused).symm⟩
    · simpa [Description.Declares] using missing
    · intro other listed
      simpa [Description.Declares] using declared other listed

theorem checkStatements_cons (description : Description) (gate : Nat) (statement : Statement)
    (others : List Statement) :
    (checkStatements description gate (statement :: others)).1 =
      checkSources description gate statement >>= fun _ =>
        (checkStatements description (gate + 1) others).1 := by
  rw [checkStatements]
  cases checkSources description gate statement with
  | error error => rfl
  | ok _ => rfl

theorem checkStatements_eq_ok_iff {description : Description} {gate : Nat}
    {statements : List Statement} :
    (checkStatements description gate statements).1 = .ok () ↔
      ∀ statement ∈ statements, ∀ source ∈ statement.sources, description.Declares source := by
  induction statements generalizing gate with
  | nil => simp [checkStatements]
  | cons statement others inductionHypothesis =>
    rw [checkStatements_cons, bind_eq_ok_iff, List.forall_mem_cons, ← inductionHypothesis,
      ← checkSources_eq_ok_iff]
    constructor
    · rintro ⟨_, first, rest⟩
      exact ⟨first, rest⟩
    · rintro ⟨first, rest⟩
      exact ⟨(), first, rest⟩

theorem checkStatements_eq_error {description : Description} {gate : Nat}
    {statements : List Statement} {error : LoadError}
    (refused : (checkStatements description gate statements).1 = .error error) :
    ∃ earlier statement later before source after,
      statements = earlier ++ statement :: later ∧
      statement.sources = before ++ source :: after ∧ ¬ description.Declares source ∧
      (∀ other ∈ earlier, ∀ source ∈ other.sources, description.Declares source) ∧
      (∀ source ∈ before, description.Declares source) ∧
      error = missingSource (gate + earlier.length) source := by
  induction statements generalizing gate with
  | nil => cases refused
  | cons statement others inductionHypothesis =>
    rw [checkStatements_cons] at refused
    cases checks : checkSources description gate statement with
    | error found =>
      rw [checks] at refused
      obtain rfl := Except.error.inj refused
      obtain ⟨before, source, after, sources, missing, declared, rfl⟩ :=
        checkSources_eq_error checks
      exact ⟨[], statement, others, before, source, after, rfl, sources, missing,
        fun _ member => absurd member List.not_mem_nil, declared, rfl⟩
    | ok _ =>
      rw [checks] at refused
      obtain ⟨earlier, second, later, before, source, after, rfl, sources, missing,
        earlierDeclared, declared, rfl⟩ := inductionHypothesis refused
      refine ⟨statement :: earlier, second, later, before, source, after, rfl, sources, missing,
        List.forall_mem_cons.mpr ⟨checkSources_eq_ok_iff.mp checks, earlierDeclared⟩, declared,
        ?_⟩
      rw [List.length_cons]
      congr 1
      omega

/-! ### Following the rules -/

theorem buildCounted_of_refused {description : Description} {error : LoadError}
    (refused : (checkStatements description 1 description.statements).1 = .error error) :
    (buildCounted description).1 = .error error := by
  unfold buildCounted
  split
  · next other _ checks =>
    rw [checks] at refused
    exact congrArg Except.error (Except.error.inj refused)
  · next checks =>
    rw [checks] at refused
    cases refused

theorem buildCounted_of_declared {description : Description}
    (declared : ∀ statement ∈ description.statements, ∀ source ∈ statement.sources,
      description.Declares source) :
    (buildCounted description).1 = assemble description.inputs description.statements := by
  have accepted : (checkStatements description 1 description.statements).1 = .ok () :=
    checkStatements_eq_ok_iff.mpr declared
  unfold buildCounted
  split
  · next checks =>
    rw [checks] at accepted
    cases accepted
  · cases assemble description.inputs description.statements with
    | error error => rfl
    | ok circuit => rfl

theorem verdict_buildCounted {description : Description} (counted : description.IsCounted) :
    Verdict description (buildCounted description).1 := by
  cases checks : (checkStatements description 1 description.statements).1 with
  | error error =>
    rw [buildCounted_of_refused checks]
    obtain ⟨earlier, statement, later, before, source, after, statements, sources, missing,
      earlierDeclared, declared, rfl⟩ := checkStatements_eq_error checks
    rw [Nat.add_comm]
    exact .missingSource counted statements sources missing earlierDeclared declared
  | ok _ =>
    have declared := checkStatements_eq_ok_iff.mp checks
    have defined := counted.areDefined_iff.mpr declared
    have small := counted.bounded
    rw [buildCounted_of_declared declared]
    by_cases read : Statement.unread description.statements = []
    · rw [assemble_of_unread_eq_nil small defined read]
      exact .noOutput counted declared read
    · by_cases acyclic : Statement.IsAcyclic description.statements
      · obtain ⟨circuit, assembles, assembled⟩ :=
          assemble_of_isAcyclic small defined read acyclic
        rw [assembles]
        exact .loaded counted declared read acyclic assembled
      · obtain ⟨number, loop, assembles⟩ := assemble_of_loop small defined read acyclic
        rw [assembles]
        exact .combinationalLoop counted declared read loop

theorem build_eq_of_isCounted {description : Description} (counted : description.IsCounted) :
    (build description).1 = (buildCounted description).1 := by
  unfold build
  rw [checkCounts_eq_ok_iff.mpr counted]

theorem verdict_build (description : Description) : Verdict description (build description).1 := by
  by_cases counted : description.IsCounted
  · rw [build_eq_of_isCounted counted]
    exact verdict_buildCounted counted
  · unfold build checkCounts
    by_cases inputs : 1 ≤ description.inputs ∧ description.inputs ≤ maxInputs
    · rw [if_neg (by omega)]
      by_cases gates : 1 ≤ description.gates ∧ description.gates ≤ maxGates
      · have differ : description.statements.length ≠ description.gates := fun equal =>
          counted ⟨inputs, gates, equal⟩
        rw [if_neg (by omega), if_pos differ]
        exact .gateLines inputs gates differ
      · rw [if_pos (by omega)]
        exact .gateCount inputs gates
    · rw [if_pos (by omega)]
      exact .inputCount inputs

/-- A circuit is built from what is declared and counted, by assembling it. -/
theorem build_eq_ok_iff {description : Description} {circuit : Circuit} :
    (build description).1 = .ok circuit ↔ description.IsCounted ∧
      (∀ statement ∈ description.statements, ∀ source ∈ statement.sources,
        description.Declares source) ∧
      assemble description.inputs description.statements = .ok circuit := by
  constructor
  · intro built
    have verdict := verdict_build description
    rw [built] at verdict
    cases verdict with
    | loaded counted declared _ _ _ =>
      rw [build_eq_of_isCounted counted, buildCounted_of_declared declared] at built
      exact ⟨counted, declared, built⟩
  · rintro ⟨counted, declared, assembles⟩
    rw [build_eq_of_isCounted counted, buildCounted_of_declared declared, assembles]

theorem load_eq_assemble {text : String} {description : Description}
    (counted : description.IsCounted)
    (declared : ∀ statement ∈ description.statements, ∀ source ∈ statement.sources,
      description.Declares source) (read : read? text = some description) :
    (load text).1 = assemble description.inputs description.statements := by
  rw [load, read, build_eq_of_isCounted counted, buildCounted_of_declared declared]

/-- A circuit is loaded from a text that can be read, by assembling what it describes. -/
theorem load_eq_ok_iff {text : String} {circuit : Circuit} :
    (load text).1 = .ok circuit ↔ ∃ description, read? text = some description ∧
      description.IsCounted ∧
      (∀ statement ∈ description.statements, ∀ source ∈ statement.sources,
        description.Declares source) ∧
      assemble description.inputs description.statements = .ok circuit := by
  unfold load
  cases read? text with
  | none => simp
  | some description => simp [build_eq_ok_iff]

theorem missingSource_ne (gate : Nat) (source : Source) :
    missingSource gate source ≠ .malformed ∧ missingSource gate source ≠ .noOutput := by
  cases source <;> exact ⟨LoadError.noConfusion, LoadError.noConfusion⟩

theorem Verdict.ne_malformed {description : Description} {outcome : Except LoadError Circuit}
    (verdict : Verdict description outcome) : outcome ≠ .error .malformed := by
  intro malformed
  cases verdict with
  | missingSource => exact (missingSource_ne _ _).1 (Except.error.inj malformed)
  | inputCount | gateCount | gateLines | noOutput | combinationalLoop | loaded => cases malformed

/-- The lack of outputs is reported only if some gates form a loop. -/
theorem Verdict.exists_loop {description : Description} {outcome : Except LoadError Circuit}
    (verdict : Verdict description outcome) (noOutput : outcome = .error .noOutput) :
    ∃ number, TransGen (Statement.Reads description.statements) number number := by
  cases verdict with
  | missingSource => exact absurd (Except.error.inj noOutput) (missingSource_ne _ _).2
  | noOutput counted _ read =>
    have loops : ¬ Statement.IsAcyclic description.statements := fun acyclic =>
      Statement.unread_ne_nil acyclic counted.statements_ne_nil read
    exact not_forall_not.mp loops
  | inputCount | gateCount | gateLines | combinationalLoop | loaded => cases noOutput

end Combinational.Lcf
