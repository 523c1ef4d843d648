/-
This file proves which circuit comes back when a circuit is written and loaded again.

The text that is written holds the description of the circuit, whatever the order in which its
devices were created. It can be loaded if the counts are in their bounds, every gate has a reference
and the gates form no loop. The circuit that comes back has the same description, an output pin for
each sink, and input pins that are false. So it has the same values once the circuit is sorted, and
it is the same circuit but for the pin values if that one was loaded or drawn itself.
-/

import Combinational.Proofs.Copies
import Combinational.Proofs.Draws
import Combinational.Proofs.Verdict
import Combinational.Proofs.Writing

namespace Combinational.Lcf

open Circuit

/-! ### What is written -/

section Describe

variable {circuit : Circuit} (wellFormed : circuit.WellFormed)
  (small : circuit.devices.size ≤ UInt32.size)

include wellFormed small

/-- The numbers of a description are far below the largest number that a numeral stands for. -/
theorem isKept_describe : (describe circuit).IsKept := by
  have large : UInt32.size ≤ largestNumber := by decide
  have inputs : circuit.inputCount ≤ largestNumber :=
    (wellFormed.inputCount_le.trans small).trans large
  have gates : circuit.gateCount ≤ largestNumber :=
    (wellFormed.gateCount_le.trans small).trans large
  refine ⟨inputs, gates, fun statement member source listed => ?_⟩
  have defined := areDefined_describe wellFormed small statement member source listed
  rw [length_statements wellFormed small] at defined
  cases source with
  | input number =>
    simp only [Source.isDefined, Bool.and_eq_true, decide_eq_true_eq] at defined
    exact defined.2.trans inputs
  | gate number => exact (Source.isDefined_gate.mp defined).2.trans gates

theorem isCounted_describe_iff : (describe circuit).IsCounted ↔
    (1 ≤ circuit.inputCount ∧ circuit.inputCount ≤ maxInputs) ∧
      (1 ≤ circuit.gateCount ∧ circuit.gateCount ≤ maxGates) := by
  constructor
  · rintro ⟨inputs, gates, _⟩
    exact ⟨inputs, gates⟩
  · rintro ⟨inputs, gates⟩
    exact ⟨inputs, gates, length_statements wellFormed small⟩

/-- Loading what was written assembles the description, if its counts are in their bounds and every
gate has a reference. -/
theorem load_write_eq_ok_iff {copy : Circuit} : (load (write circuit)).1 = .ok copy ↔
    (describe circuit).IsCounted ∧ (∀ gate ∈ circuit.gates, circuit.references gate ≠ []) ∧
      assemble circuit.inputCount (describe circuit).statements = .ok copy := by
  have kept := isKept_describe wellFormed small
  rw [load_eq_ok_iff, write, ← sources_ne_nil_iff wellFormed small]
  constructor
  · rintro ⟨description, read, counted, _, assembles⟩
    obtain ⟨_, connected, rfl⟩ := (read?_description_text kept).mp read
    exact ⟨counted, connected, assembles⟩
  · rintro ⟨counted, connected, assembles⟩
    have nonempty := counted.statements_ne_nil
    have declared := counted.areDefined_iff.mp (areDefined_describe wellFormed small)
    exact ⟨_, (read?_description_text kept).mpr ⟨nonempty, connected, rfl⟩, counted, declared,
      assembles⟩

theorem exists_assemble_iff (counted : (describe circuit).IsCounted) :
    (∃ copy, assemble circuit.inputCount (describe circuit).statements = .ok copy) ↔
      circuit.IsAcyclic := by
  have defined := areDefined_describe wellFormed small
  have room : circuit.inputCount + (describe circuit).statements.length < UInt32.size :=
    counted.bounded
  rw [← isAcyclic_describe_iff wellFormed small]
  constructor
  · rintro ⟨copy, assembles⟩
    obtain ⟨_, sorted, sorts, _⟩ := (assemble_eq_ok_iff room defined).mp assembles
    have acyclic := (sorts_iff_isAcyclic (wellFormed_wired room defined)
      (size_wired_le room)).mp ⟨sorted, sorts⟩
    exact (isAcyclic_wired_iff room defined).mp acyclic
  · intro acyclic
    have unread := Statement.unread_ne_nil acyclic counted.statements_ne_nil
    obtain ⟨copy, assembles, _⟩ := assemble_of_isAcyclic room defined unread acyclic
    exact ⟨copy, assembles⟩

theorem describe_withPins (value : DeviceId → Bool) :
    describe (circuit.withPins value) = describe circuit := by
  refine describe_congr rfl rfl fun gate member => ?_
  obtain ⟨_, _, found⟩ := (wellFormed.mem_gates small).mp member
  rw [getElem?_withPins_of_not_input found rfl, found]

end Describe

/-! ### What comes back -/

/-- The circuit that comes back has the same pins and gates as the other one, and output pins that
forward its sinks. -/
structure IsCopy (circuit copy : Circuit) : Prop where
  inputCount_eq : copy.inputCount = circuit.inputCount
  gateCount_eq : copy.gateCount = circuit.gateCount
  /-- The input pins are false. -/
  pins : ∀ id ∈ copy.inputs, copy.device id = .ok (.inputPin false)
  /-- The gates with one number have one kind, and name the same sources in the same order. -/
  gates : ∀ (position : Nat) (gate copied : DeviceId), circuit.gates[position]? = some gate →
    copy.gates[position]? = some copied →
    ∃ kind references copiedReferences, ∃ sources : List Source,
      circuit.device gate = .ok (.gate kind references) ∧
      copy.device copied = .ok (.gate kind copiedReferences) ∧
      references.map (source? circuit) = sources.map some ∧
      copiedReferences.map (source? copy) = sources.map some
  /-- The output pins forward the gates with the numbers of the sinks, in ascending order. The
  sinks are the gates that no gate reads. -/
  outputs : ∃ (numbers : List Nat) (drivers : List DeviceId),
    circuit.sinks.toList.map circuit.gateNumber? = numbers.map some ∧
    numbers.Pairwise (· < ·) ∧
    (∀ number, number ∈ numbers ↔ ∃ gate, circuit.gateNumber? gate = some number ∧
      ∀ consumer, ¬ circuit.Reads consumer gate) ∧
    drivers.map copy.gateNumber? = numbers.map some ∧
    copy.outputs.toList.map copy.device = drivers.map fun driver => .ok (.outputPin [driver])

/-- The circuit was loaded, or drawn with dice whose numbers lie below their bounds. -/
def IsReturned (circuit : Circuit) : Prop :=
  (∃ text, (load text).1 = .ok circuit) ∨
    ∃ (State : Type) (below : Random.Dice State), below.IsBounded ∧
      ∃ state inputs gates, drawn below state inputs gates = .ok circuit

theorem exists_statements_of_isReturned {circuit : Circuit} (returned : IsReturned circuit) :
    ∃ inputs statements, Statement.AreDefined inputs statements ∧
      assemble inputs statements = .ok circuit := by
  rcases returned with ⟨text, loads⟩ | ⟨_, _, bounded, _, inputs, _, draws⟩
  · obtain ⟨_, _, counted, declared, assembles⟩ := load_eq_ok_iff.mp loads
    exact ⟨_, _, counted.areDefined_iff.mpr declared, assembles⟩
  · obtain ⟨statements, _, defined, assembles⟩ := exists_statements_of_drawn bounded draws
    exact ⟨inputs, statements, defined, assembles⟩

section Copy

variable {circuit copy : Circuit} (wellFormed : circuit.WellFormed)
  (small : circuit.devices.size ≤ UInt32.size) (counted : (describe circuit).IsCounted)
  (assembles : assemble circuit.inputCount (describe circuit).statements = .ok copy)

include wellFormed small counted assembles

theorem reachable_copy : copy.Reachable :=
  reachable_assemble counted.bounded
    (areDefined_describe wellFormed small) (outputs_fit counted.small) assembles

theorem size_copy : copy.devices.size < UInt32.size :=
  size_assemble counted.bounded
    (areDefined_describe wellFormed small) (outputs_fit counted.small) assembles

theorem isAssembled_copy : IsAssembled circuit.inputCount (describe circuit).statements copy :=
  isAssembled_of_assemble counted.bounded
    (areDefined_describe wellFormed small) assembles

theorem describe_copy : describe copy = describe circuit := by
  rw [describe_of_assemble counted.bounded
    (areDefined_describe wellFormed small) assembles, length_statements wellFormed small]
  rfl

theorem isCopy_of_assemble : IsCopy circuit copy := by
  have copySmall := (size_copy wellFormed small counted assembles).le
  have copyWellFormed := (reachable_copy wellFormed small counted assembles).wellFormed
    (size_copy wellFormed small counted assembles)
  have assembled := isAssembled_copy wellFormed small counted assembles
  have same := describe_copy wellFormed small counted assembles
  refine ⟨congrArg Description.inputs same, congrArg Description.gates same,
    fun id => assembled.device_of_mem_inputs copyWellFormed copySmall,
    fun position gate copied listed copyListed => ?_, ?_⟩
  · obtain ⟨kind, references, copiedReferences, sources, found, copyFound, named, copyNamed⟩ :=
      exists_sources wellFormed small copyWellFormed copySmall same listed copyListed
    exact ⟨kind, references, copiedReferences, sources, device_eq_ok_iff.mpr found,
      device_eq_ok_iff.mpr copyFound, named, copyNamed⟩
  · refine ⟨Statement.unread (describe circuit).statements,
      (Statement.unread (describe circuit).statements).map (gateId circuit.inputCount),
      map_gateNumber?_sinks wellFormed small, Statement.pairwise_unread _,
      fun _ => mem_unread_describe_iff wellFormed small, ?_, ?_⟩
    · rw [List.map_map]
      refine List.map_congr_left fun number unread => ?_
      have located := assembled.locate_gate (Statement.mem_unread_iff.mp unread).1
      have named := (source?_eq_some_iff copyWellFormed copySmall).mpr located
      exact (source?_eq_gate_iff copyWellFormed copySmall).mp named
    · rw [assembled.map_device_outputs copySmall, List.map_map]
      rfl

/-- A circuit that was loaded or drawn comes back as it was returned. -/
theorem eq_of_isReturned {original : Circuit} {value : DeviceId → Bool}
    (returned : IsReturned original) (same : circuit = original.withPins value) :
    copy = original := by
  subst same
  obtain ⟨inputs, statements, defined, returns⟩ := exists_statements_of_isReturned returned
  obtain ⟨pins, gates⟩ := counts_of_assemble returns
  have room : inputs + statements.length + statements.length < UInt32.size := by
    have room := counted.small
    rw [length_statements wellFormed small] at room
    rw [← pins, ← gates]
    exact room
  have bounded := Nat.lt_of_le_of_lt (Nat.le_add_right _ _) room
  obtain ⟨originalWellFormed, originalSmall⟩ :=
    wellFormed_assemble bounded defined (outputs_fit room) returns
  have described : describe (original.withPins value) =
      { inputs, gates := statements.length, statements } := by
    rw [describe_withPins originalWellFormed originalSmall,
      describe_of_assemble bounded defined returns]
  have inputCount : (original.withPins value).inputCount = inputs := pins
  rw [described, inputCount, returns] at assembles
  exact (Except.ok.inj assembles).symm

theorem withPins_false_of_isReturned {original : Circuit} {value : DeviceId → Bool}
    (returned : IsReturned original) (same : circuit = original.withPins value) :
    copy = circuit.withPins fun _ => false := by
  have copySmall := size_copy wellFormed small counted assembles
  have held := (isAssembled_copy wellFormed small counted assembles).heldValue_eq
  have equal := eq_of_isReturned wellFormed small counted assembles returned same
  rw [same, withPins_withPins, ← equal, ← held, withPins_heldValue copySmall.le]

/-- Sorting changes nothing that is copied. -/
theorem haveSameValues_withOrder {order : Array DeviceId}
    (reachable : Reachable { circuit with order }) (sorted : isSorted { circuit with order } = true)
    (room : circuit.devices.size < UInt32.size)
    (connected : ∀ gate ∈ circuit.gates, circuit.references gate ≠ []) :
    HaveSameValues { circuit with order } copy := by
  have assembled := isAssembled_copy wellFormed small counted assembles
  have described : describe { circuit with order } = describe circuit :=
    describe_congr rfl rfl fun _ _ => rfl
  have same : describe copy = describe { circuit with order } := by
    rw [describe_copy wellFormed small counted assembles, described]
  exact haveSameValues_of_describe_eq reachable room sorted
    (reachable_copy wellFormed small counted assembles)
    (size_copy wellFormed small counted assembles) assembled.isSorted same connected

end Copy

/-! ### Main statement -/

end Combinational.Lcf
