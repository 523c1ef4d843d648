/-
This file describes a circuit by the numbers of its pins and gates.

The description of a circuit numbers the devices that its gates reference, and passes over those
that have no number. In a circuit that operations produced every reference has a number, and the
number leads back to the device. So the statements have as many sources as the gates have
references, they read each other as the gates do, and those that no statement reads are the sinks.
-/

import Combinational.Lcf.Description
import Combinational.Proofs.Traversal

namespace Combinational

open Relation

/-! ### Statements that read each other -/

theorem Source.isDefined_gate {inputs gates number : Nat} :
    (Source.gate number).isDefined inputs gates = true ↔ 1 ≤ number ∧ number ≤ gates := by
  simp [Source.isDefined]

namespace Statement

/-- Every source of the statements exists. -/
def AreDefined (inputs : Nat) (statements : List Statement) : Prop :=
  ∀ statement ∈ statements, ∀ source ∈ statement.sources,
    source.isDefined inputs statements.length = true

/-- Whether the gate with one number has the gate with another one, or itself, as a source. -/
def Reads (statements : List Statement) (consumer source : Nat) : Prop :=
  ∃ position statement, statements[position]? = some statement ∧ consumer = position + 1 ∧
    .gate source ∈ statement.sources

/-- No gate reads itself, directly or through other gates. -/
def IsAcyclic (statements : List Statement) : Prop :=
  ∀ number, ¬ TransGen (Reads statements) number number

/-- The numbers of the gates that no gate reads. -/
def unread (statements : List Statement) : List Nat :=
  (List.range' 1 statements.length).filter fun number =>
    statements.all fun statement => .gate number ∉ statement.sources

theorem pairwise_unread (statements : List Statement) :
    (unread statements).Pairwise (· < ·) := by
  have ascending : (List.range' 1 statements.length).Pairwise (· < ·) := List.pairwise_lt_range'
  exact ascending.filter _

theorem mem_unread_iff {statements : List Statement} {number : Nat} :
    number ∈ unread statements ↔ (1 ≤ number ∧ number ≤ statements.length) ∧
      ∀ statement ∈ statements, .gate number ∉ statement.sources := by
  unfold unread
  rw [List.mem_filter, List.mem_range'_1, List.all_eq_true]
  simp only [decide_eq_true_eq]
  refine and_congr_left fun _ => ?_
  omega

/-- Statements that form no loop cannot all be read. -/
theorem unread_ne_nil {statements : List Statement} (acyclic : IsAcyclic statements)
    (nonempty : statements ≠ []) : unread statements ≠ [] := by
  have numbers : List.range' 1 statements.length ≠ [] := by
    rw [Ne, List.range'_eq_nil_iff, List.length_eq_zero_iff]
    exact nonempty
  obtain ⟨number, listed, free⟩ := exists_unrelated acyclic numbers
  rw [List.mem_range'_1] at listed
  have isUnread : number ∈ unread statements := by
    refine mem_unread_iff.mpr ⟨by omega, fun statement member read => ?_⟩
    obtain ⟨position, given⟩ := List.mem_iff_getElem?.mp member
    obtain ⟨inside, _⟩ := List.getElem?_eq_some_iff.mp given
    refine free (position + 1) ?_ ⟨position, statement, given, rfl, read⟩
    rw [List.mem_range'_1]
    omega
  exact List.ne_nil_of_mem isUnread

end Statement

/-! ### Lists without omissions -/

theorem map_some_filterMap {Item Value : Type} {items : List Item} {compute : Item → Option Value}
    (total : ∀ item ∈ items, (compute item).isSome) :
    (items.filterMap compute).map some = items.map compute := by
  induction items with
  | nil => rfl
  | cons item others inductionHypothesis =>
    obtain ⟨here, rest⟩ := List.forall_mem_cons.mp total
    obtain ⟨value, computed⟩ := Option.isSome_iff_exists.mp here
    rw [List.filterMap_cons_some computed, List.map_cons, List.map_cons,
      inductionHypothesis rest, computed]

theorem filterMap_of_map_eq {Item Value : Type} {items : List Item} {compute : Item → Option Value}
    {values : List Value} (computed : items.map compute = values.map some) :
    items.filterMap compute = values := by
  show items.filterMap (id ∘ compute) = values
  rw [← List.filterMap_map, computed, List.filterMap_map]
  exact List.filterMap_some

/-! ### The devices with a number -/

namespace Circuit

/-- The device that a source names. -/
def locate (circuit : Circuit) : Source → Option DeviceId
  | .input (position + 1) => circuit.inputs[position]?
  | .gate (position + 1) => circuit.gates[position]?
  | .input 0 | .gate 0 => none

theorem isDefined_of_locate {circuit : Circuit} {source : Source} {id : DeviceId}
    (located : circuit.locate source = some id) :
    source.isDefined circuit.inputCount circuit.gateCount = true := by
  unfold locate at located
  split at located
  · obtain ⟨inside, _⟩ := Array.getElem?_eq_some_iff.mp located
    simp only [Source.isDefined, Bool.and_eq_true, decide_eq_true_eq]
    exact ⟨Nat.le_add_left .., inside⟩
  · obtain ⟨inside, _⟩ := Array.getElem?_eq_some_iff.mp located
    exact Source.isDefined_gate.mpr ⟨Nat.le_add_left .., inside⟩
  · cases located
  · cases located

theorem exists_locate {circuit : Circuit} {source : Source}
    (defined : source.isDefined circuit.inputCount circuit.gateCount = true) :
    ∃ id, circuit.locate source = some id := by
  match source, defined with
  | .input (position + 1), defined =>
    simp only [Source.isDefined, Bool.and_eq_true, decide_eq_true_eq] at defined
    exact ⟨_, Array.getElem?_eq_getElem defined.2⟩
  | .gate (position + 1), defined =>
    exact ⟨_, Array.getElem?_eq_getElem (Source.isDefined_gate.mp defined).2⟩

/-- The gate with a number. -/
def gateOf (circuit : Circuit) (number : Nat) : DeviceId :=
  circuit.gates.getD (number - 1) default

theorem gateOf_of_locate {circuit : Circuit} {number : Nat} {id : DeviceId}
    (located : circuit.locate (.gate number) = some id) : circuit.gateOf number = id := by
  cases number with
  | zero => cases located
  | succ position =>
    have listed : circuit.gates[position]? = some id := located
    rw [gateOf, Nat.add_sub_cancel, Array.getD_eq_getD_getElem?, listed]
    rfl

theorem toList_gates_eq (circuit : Circuit) :
    circuit.gates.toList = (List.range' 1 circuit.gateCount).map circuit.gateOf := by
  refine List.ext_getElem (by simp [gateCount]) fun position inside _ => ?_
  rw [Array.length_toList] at inside
  simp [gateOf, inside]

section WellFormed

variable {circuit : Circuit} (wellFormed : circuit.WellFormed)
  (small : circuit.devices.size ≤ UInt32.size)

include wellFormed small

theorem gateNumber?_eq_some_iff_gateOf {id : DeviceId} {number : Nat} :
    circuit.gateNumber? id = some number ↔
      (1 ≤ number ∧ number ≤ circuit.gateCount) ∧ circuit.gateOf number = id := by
  rw [wellFormed.gateNumber?_eq_some_iff small]
  constructor
  · rintro ⟨position, listed, rfl⟩
    have located : circuit.locate (.gate (position + 1)) = some id := listed
    exact ⟨Source.isDefined_gate.mp (isDefined_of_locate located), gateOf_of_locate located⟩
  · rintro ⟨numbered, rfl⟩
    obtain ⟨id, located⟩ := exists_locate (Source.isDefined_gate.mpr numbered)
    obtain ⟨position, rfl⟩ := Nat.exists_eq_add_of_le' numbered.1
    rw [gateOf_of_locate located]
    exact ⟨position, located, rfl⟩

theorem exists_gateNumber? {id : DeviceId} (member : id ∈ circuit.gates) :
    ∃ number, circuit.gateNumber? id = some number := by
  obtain ⟨position, listed⟩ := Array.mem_iff_getElem?.mp member
  exact ⟨position + 1, (wellFormed.gateNumber?_eq_some_iff small).mpr ⟨position, listed, rfl⟩⟩

end WellFormed

end Circuit

namespace Lcf

open Circuit

/-- The description depends on the input pins and the gates only. -/
theorem describe_congr {circuit other : Circuit} (inputs : other.inputs = circuit.inputs)
    (gates : other.gates = circuit.gates)
    (devices : ∀ gate ∈ circuit.gates, other.devices[gate.index]? = circuit.devices[gate.index]?) :
    describe other = describe circuit := by
  have sources : source? other = source? circuit := by
    funext reference
    rw [source?, inputNumber?, gateNumber?, inputs, gates]
    rfl
  have statements : ∀ gate ∈ circuit.gates.toList,
      statement? other gate = statement? circuit gate := by
    intro gate member
    rw [statement?, Circuit.device, devices gate (Array.mem_toList_iff.mp member), sources]
    rfl
  rw [describe, inputCount, gateCount, inputs, gates, List.filterMap_congr statements]
  rfl

section WellFormed

variable {circuit : Circuit} (wellFormed : circuit.WellFormed)
  (small : circuit.devices.size ≤ UInt32.size)

include wellFormed small

/-- The source that stands for a device names this device. -/
theorem source?_eq_some_iff {id : DeviceId} {source : Source} :
    source? circuit id = some source ↔ circuit.locate source = some id := by
  have disjoint : ∀ position : Nat, circuit.gates[position]? = some id →
      circuit.inputNumber? id = none := by
    intro position listed
    rw [Option.eq_none_iff_forall_ne_some]
    intro number numbered
    obtain ⟨other, pin, _⟩ := (wellFormed.inputNumber?_eq_some_iff small).mp numbered
    obtain ⟨_, found⟩ := (wellFormed.mem_inputs small).mp (Array.mem_of_getElem? pin)
    obtain ⟨_, _, again⟩ := (wellFormed.mem_gates small).mp (Array.mem_of_getElem? listed)
    cases found.symm.trans again
  unfold source?
  constructor
  · intro named
    split at named
    · next number numbered =>
      obtain rfl := Option.some.inj named
      obtain ⟨position, listed, rfl⟩ := (wellFormed.inputNumber?_eq_some_iff small).mp numbered
      exact listed
    · obtain ⟨number, numbered, rfl⟩ := Option.map_eq_some_iff.mp named
      obtain ⟨position, listed, rfl⟩ := (wellFormed.gateNumber?_eq_some_iff small).mp numbered
      exact listed
  · intro located
    match source, located with
    | .input (position + 1), listed =>
      rw [(wellFormed.inputNumber?_eq_some_iff small).mpr ⟨position, listed, rfl⟩]
    | .gate (position + 1), listed =>
      rw [disjoint position listed,
        (wellFormed.gateNumber?_eq_some_iff small).mpr ⟨position, listed, rfl⟩]
      rfl

theorem source?_eq_gate_iff {id : DeviceId} {number : Nat} :
    source? circuit id = some (.gate number) ↔ circuit.gateNumber? id = some number := by
  rw [source?_eq_some_iff wellFormed small, wellFormed.gateNumber?_eq_some_iff small]
  cases number with
  | zero => simp [locate]
  | succ position => simp [locate, eq_comm]

theorem isSome_source?_of_reference {id reference : DeviceId}
    (member : reference ∈ circuit.references id) : (source? circuit reference).isSome := by
  rw [Option.isSome_iff_exists]
  rcases wellFormed.mem_inputs_or_mem_gates small member with pin | gate
  · obtain ⟨position, listed⟩ := Array.mem_iff_getElem?.mp pin
    exact ⟨.input (position + 1), (source?_eq_some_iff wellFormed small).mpr listed⟩
  · obtain ⟨position, listed⟩ := Array.mem_iff_getElem?.mp gate
    exact ⟨.gate (position + 1), (source?_eq_some_iff wellFormed small).mpr listed⟩

/-! ### The statements of the gates -/

omit wellFormed small in
theorem statement?_of_getElem? {id : DeviceId} {kind : GateKind} {references : List DeviceId}
    (found : circuit.devices[id.index]? = some (.gate kind references)) :
    statement? circuit id = some { kind, sources := references.filterMap (source? circuit) } := by
  unfold statement?
  rw [device_eq_ok_iff.mpr found]

theorem map_some_statements : (describe circuit).statements.map some =
    circuit.gates.toList.map (statement? circuit) := by
  refine map_some_filterMap fun gate member => ?_
  obtain ⟨_, _, found⟩ := (wellFormed.mem_gates small).mp (Array.mem_toList_iff.mp member)
  rw [statement?_of_getElem? found]
  rfl

theorem length_statements : (describe circuit).statements.length = circuit.gateCount := by
  have lengths := congrArg List.length (map_some_statements wellFormed small)
  rwa [List.length_map, List.length_map, Array.length_toList] at lengths

theorem map_some_sources (id : DeviceId) :
    ((circuit.references id).filterMap (source? circuit)).map some =
      (circuit.references id).map (source? circuit) :=
  map_some_filterMap fun _ member => isSome_source?_of_reference wellFormed small member

/-- The statement with a number has the kind and the sources of the gate with this number. -/
theorem getElem?_statements_eq_some_iff {position : Nat} {statement : Statement} :
    (describe circuit).statements[position]? = some statement ↔
      ∃ gate references, circuit.gates[position]? = some gate ∧
        circuit.devices[gate.index]? = some (.gate statement.kind references) ∧
        references.map (source? circuit) = statement.sources.map some := by
  have entries : (describe circuit).statements[position]?.map some =
      circuit.gates[position]?.map (statement? circuit) := by
    rw [← List.getElem?_map, map_some_statements wellFormed small, List.getElem?_map,
      Array.getElem?_toList]
  constructor
  · intro given
    rw [given, Option.map_some, eq_comm, Option.map_eq_some_iff] at entries
    obtain ⟨gate, listed, defines⟩ := entries
    obtain ⟨kind, references, found⟩ :=
      (wellFormed.mem_gates small).mp (Array.mem_of_getElem? listed)
    rw [statement?_of_getElem? found] at defines
    obtain rfl := Option.some.inj defines
    have sources := map_some_sources wellFormed small gate
    rw [references_of_getElem? found] at sources
    exact ⟨gate, references, listed, found, sources.symm⟩
  · rintro ⟨gate, references, listed, found, sources⟩
    rw [listed, Option.map_some, statement?_of_getElem? found, filterMap_of_map_eq sources,
      Option.map_eq_some_iff] at entries
    obtain ⟨other, given, same⟩ := entries
    rw [given, Option.some.inj same]

theorem exists_statement {position : Nat} {gate : DeviceId}
    (listed : circuit.gates[position]? = some gate) :
    ∃ statement, (describe circuit).statements[position]? = some statement ∧
      (circuit.references gate).map (source? circuit) = statement.sources.map some := by
  obtain ⟨kind, references, found⟩ :=
    (wellFormed.mem_gates small).mp (Array.mem_of_getElem? listed)
  have sources := map_some_sources wellFormed small gate
  rw [references_of_getElem? found] at sources ⊢
  exact ⟨{ kind, sources := references.filterMap (source? circuit) },
    (getElem?_statements_eq_some_iff wellFormed small).mpr
      ⟨gate, references, listed, found, sources.symm⟩, sources.symm⟩

theorem areDefined_describe :
    Statement.AreDefined circuit.inputCount (describe circuit).statements := by
  intro statement member source listed
  obtain ⟨position, given⟩ := List.mem_iff_getElem?.mp member
  obtain ⟨_, references, _, _, sources⟩ :=
    (getElem?_statements_eq_some_iff wellFormed small).mp given
  have numbered : some source ∈ references.map (source? circuit) := by
    rw [sources]
    exact List.mem_map_of_mem listed
  obtain ⟨reference, _, named⟩ := List.mem_map.mp numbered
  rw [length_statements wellFormed small]
  exact isDefined_of_locate ((source?_eq_some_iff wellFormed small).mp named)

/-- Statements lack sources exactly where gates lack references. -/
theorem sources_ne_nil_iff :
    (∀ statement ∈ (describe circuit).statements, statement.sources ≠ []) ↔
      ∀ gate ∈ circuit.gates, circuit.references gate ≠ [] := by
  constructor
  · intro connected gate member
    obtain ⟨position, listed⟩ := Array.mem_iff_getElem?.mp member
    obtain ⟨statement, given, sources⟩ := exists_statement wellFormed small listed
    intro lacking
    rw [lacking, List.map_nil, eq_comm, List.map_eq_nil_iff] at sources
    exact connected statement (List.mem_of_getElem? given) sources
  · intro connected statement member
    obtain ⟨position, given⟩ := List.mem_iff_getElem?.mp member
    obtain ⟨gate, references, listed, found, sources⟩ :=
      (getElem?_statements_eq_some_iff wellFormed small).mp given
    have referring := connected gate (Array.mem_of_getElem? listed)
    rw [references_of_getElem? found] at referring
    intro lacking
    rw [lacking, List.map_nil, List.map_eq_nil_iff] at sources
    exact referring sources

/-! ### Gates that read gates -/

theorem reads_describe_iff {consumer source : Nat} :
    Statement.Reads (describe circuit).statements consumer source ↔
      ∃ consumerGate sourceGate, circuit.Reads consumerGate sourceGate ∧
        circuit.gateNumber? consumerGate = some consumer ∧
        circuit.gateNumber? sourceGate = some source := by
  constructor
  · rintro ⟨position, statement, given, rfl, listed⟩
    obtain ⟨gate, references, member, found, sources⟩ :=
      (getElem?_statements_eq_some_iff wellFormed small).mp given
    have numbered : some (.gate source) ∈ references.map (source? circuit) := by
      rw [sources]
      exact List.mem_map_of_mem listed
    obtain ⟨reference, referenced, named⟩ := List.mem_map.mp numbered
    have sourceNumber := (source?_eq_gate_iff wellFormed small).mp named
    refine ⟨gate, reference, ⟨Array.mem_of_getElem? member, ?_, ?_⟩, ?_, sourceNumber⟩
    · obtain ⟨_, at_source, _⟩ := (wellFormed.gateNumber?_eq_some_iff small).mp sourceNumber
      exact Array.mem_of_getElem? at_source
    · rwa [references_of_getElem? found]
    · exact (wellFormed.gateNumber?_eq_some_iff small).mpr ⟨position, member, rfl⟩
  · rintro ⟨consumerGate, sourceGate, ⟨_, _, referenced⟩, consumerNumber, sourceNumber⟩
    obtain ⟨position, listed, rfl⟩ := (wellFormed.gateNumber?_eq_some_iff small).mp consumerNumber
    obtain ⟨statement, given, sources⟩ := exists_statement wellFormed small listed
    have named : some (.gate source) ∈ statement.sources.map some := by
      rw [← sources]
      exact List.mem_map.mpr
        ⟨sourceGate, referenced, (source?_eq_gate_iff wellFormed small).mpr sourceNumber⟩
    exact ⟨position, statement, given, rfl, by simpa using named⟩

/-- A chain of gates is a chain of their numbers. -/
theorem transGen_gateNumber? {first last : DeviceId} {firstNumber lastNumber : Nat}
    (firstNumbered : circuit.gateNumber? first = some firstNumber)
    (lastNumbered : circuit.gateNumber? last = some lastNumber)
    (chain : TransGen circuit.Reads first last) :
    TransGen (Statement.Reads (describe circuit).statements) firstNumber lastNumber := by
  have lifted : TransGen (Statement.Reads (describe circuit).statements)
      ((circuit.gateNumber? first).getD 0) ((circuit.gateNumber? last).getD 0) := by
    refine TransGen.lift (fun gate => (circuit.gateNumber? gate).getD 0) ?_ _ _ chain
    intro consumer source reads
    obtain ⟨consumerNumber, consumerNumbered⟩ := exists_gateNumber? wellFormed small reads.1
    obtain ⟨sourceNumber, sourceNumbered⟩ := exists_gateNumber? wellFormed small reads.2.1
    show Statement.Reads _ (Option.getD _ _) (Option.getD _ _)
    rw [consumerNumbered, sourceNumbered]
    exact (reads_describe_iff wellFormed small).mpr
      ⟨consumer, source, reads, consumerNumbered, sourceNumbered⟩
  rwa [firstNumbered, lastNumbered] at lifted

theorem isAcyclic_describe_iff :
    Statement.IsAcyclic (describe circuit).statements ↔ circuit.IsAcyclic := by
  constructor
  · intro acyclic gate loop
    obtain ⟨_, ⟨member, _⟩, _⟩ := TransGen.head'_iff.mp loop
    obtain ⟨number, numbered⟩ := exists_gateNumber? wellFormed small member
    exact acyclic number (transGen_gateNumber? wellFormed small numbered numbered loop)
  · intro acyclic number loop
    refine acyclic (circuit.gateOf number) (TransGen.lift circuit.gateOf ?_ _ _ loop)
    intro consumer source reads
    obtain ⟨_, _, gateReads, consumerNumbered, sourceNumbered⟩ :=
      (reads_describe_iff wellFormed small).mp reads
    obtain ⟨_, rfl⟩ := (gateNumber?_eq_some_iff_gateOf wellFormed small).mp consumerNumbered
    obtain ⟨_, rfl⟩ := (gateNumber?_eq_some_iff_gateOf wellFormed small).mp sourceNumbered
    exact gateReads

/-- No statement reads a number if no gate reads the gate with this number. -/
theorem unread_iff_of_gateNumber? {gate : DeviceId} {number : Nat}
    (numbered : circuit.gateNumber? gate = some number) :
    (∀ statement ∈ (describe circuit).statements, .gate number ∉ statement.sources) ↔
      ∀ consumer, ¬ circuit.Reads consumer gate := by
  constructor
  · intro unread consumer reads
    obtain ⟨consumerNumber, consumerNumbered⟩ := exists_gateNumber? wellFormed small reads.1
    obtain ⟨_, statement, given, _, read⟩ := (reads_describe_iff wellFormed small).mpr
      ⟨consumer, gate, reads, consumerNumbered, numbered⟩
    exact unread statement (List.mem_of_getElem? given) read
  · intro unread statement member read
    obtain ⟨position, given⟩ := List.mem_iff_getElem?.mp member
    obtain ⟨consumer, source, reads, _, sourceNumbered⟩ :=
      (reads_describe_iff wellFormed small).mp ⟨position, statement, given, rfl, read⟩
    obtain ⟨_, rfl⟩ := (gateNumber?_eq_some_iff_gateOf wellFormed small).mp sourceNumbered
    obtain ⟨_, rfl⟩ := (gateNumber?_eq_some_iff_gateOf wellFormed small).mp numbered
    exact unread consumer reads

theorem mem_unread_describe_iff {number : Nat} :
    number ∈ Statement.unread (describe circuit).statements ↔
      ∃ gate, circuit.gateNumber? gate = some number ∧
        ∀ consumer, ¬ circuit.Reads consumer gate := by
  rw [Statement.mem_unread_iff, length_statements wellFormed small]
  constructor
  · rintro ⟨bounds, unread⟩
    have numbered := (gateNumber?_eq_some_iff_gateOf wellFormed small).mpr ⟨bounds, rfl⟩
    exact ⟨_, numbered, (unread_iff_of_gateNumber? wellFormed small numbered).mp unread⟩
  · rintro ⟨gate, numbered, unread⟩
    exact ⟨((gateNumber?_eq_some_iff_gateOf wellFormed small).mp numbered).1,
      (unread_iff_of_gateNumber? wellFormed small numbered).mpr unread⟩

/-- The sinks are the gates with the numbers that no statement reads. -/
theorem toList_sinks_eq : circuit.sinks.toList =
    (Statement.unread (describe circuit).statements).map circuit.gateOf := by
  rw [toList_sinks wellFormed small, toList_gates_eq, List.filter_map, Statement.unread,
    length_statements wellFormed small]
  refine congrArg (List.map _) (List.filter_congr fun number listed => ?_)
  have numbered : circuit.gateNumber? (circuit.gateOf number) = some number := by
    rw [List.mem_range'_1] at listed
    exact (gateNumber?_eq_some_iff_gateOf wellFormed small).mpr ⟨by omega, rfl⟩
  have member : circuit.gateOf number ∈ circuit.gates := by
    obtain ⟨_, found, _⟩ := (wellFormed.gateNumber?_eq_some_iff small).mp numbered
    exact Array.mem_of_getElem? found
  have unread := unread_iff_of_gateNumber? wellFormed small numbered
  rw [Function.comp_apply, Bool.eq_iff_iff, decide_eq_true_eq,
    pendingReferences_nil_eq_zero_iff member, List.all_eq_true]
  simp only [decide_eq_true_eq]
  exact unread.symm

theorem map_gateNumber?_sinks : circuit.sinks.toList.map circuit.gateNumber? =
    (Statement.unread (describe circuit).statements).map some := by
  rw [toList_sinks_eq wellFormed small, List.map_map]
  refine List.map_congr_left fun number unread => ?_
  have bounds := (Statement.mem_unread_iff.mp unread).1
  rw [length_statements wellFormed small] at bounds
  exact (gateNumber?_eq_some_iff_gateOf wellFormed small).mpr ⟨bounds, rfl⟩

end WellFormed

end Lcf

end Combinational
