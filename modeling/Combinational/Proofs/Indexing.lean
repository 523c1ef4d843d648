/-
This file states what the lists of a circuit say about its arena.

After any history the lists are ascending and have no common entries. They hold the input pins, the
gates, and output pins that are driven. Only output pins may be left out, and each one that is was
placed by an operation that could not connect it: no other operation places an output pin or takes
one out of the list.

A pin or gate and its number determine each other, therefore, and reading the values of the input
pins asks for no other value.
-/

import Combinational.Proofs.History
import Mathlib.Data.List.Induction

namespace Combinational

open Relation

namespace Circuit

/-! ### Output pins outside the list -/

/-- Whether an identifier names an output pin that is not listed. -/
def IsStray (circuit : Circuit) (id : DeviceId) : Prop :=
  (∃ references, circuit.device id = .ok (.outputPin references)) ∧ id ∉ circuit.outputs

section Stray

variable {circuit next : Circuit} {id : DeviceId} (stray : next.IsStray id)

include stray

theorem IsStray.of_push {pushed : Device} (devices : next.devices = circuit.devices.push pushed)
    (outputs : next.outputs = circuit.outputs) (notOutput : pushed.isOutputPin = false) :
    circuit.IsStray id := by
  obtain ⟨⟨references, found⟩, unlisted⟩ := stray
  rw [outputs] at unlisted
  rw [device_eq_ok_iff, devices, Array.getElem?_push] at found
  split at found
  · obtain rfl := Option.some.inj found
    cases notOutput
  · exact ⟨⟨references, device_eq_ok_iff.mpr found⟩, unlisted⟩

/-- An output pin that is placed without being listed is the only new one outside the list. -/
theorem IsStray.of_pushStray (small : circuit.devices.size < UInt32.size)
    (devices : next.devices = circuit.devices.push (.outputPin []))
    (outputs : next.outputs = circuit.outputs) : circuit.IsStray id ∨ circuit.nextId = id := by
  obtain ⟨⟨references, found⟩, unlisted⟩ := stray
  rw [outputs] at unlisted
  rw [device_eq_ok_iff, devices, Array.getElem?_push] at found
  split at found
  · next last =>
    rw [← DeviceId.index_ofIndex_of_lt small] at last
    exact Or.inr (DeviceId.index_injective last.symm)
  · exact Or.inl ⟨⟨references, device_eq_ok_iff.mpr found⟩, unlisted⟩

theorem IsStray.of_set {position : Nat} {device updated : Device}
    (found : circuit.devices[position]? = some device) (same : updated.SameSort device)
    (devices : next.devices = circuit.devices.setIfInBounds position updated)
    (outputs : next.outputs = circuit.outputs) : circuit.IsStray id := by
  obtain ⟨⟨references, here⟩, unlisted⟩ := stray
  rw [outputs] at unlisted
  rw [device_eq_ok_iff, devices] at here
  by_cases equal : id.index = position
  · subst equal
    rw [getElem?_setIfInBounds_of_some found] at here
    obtain rfl := Option.some.inj here
    obtain ⟨before, rfl⟩ := Device.isOutputPin_iff.mp same.2.1.symm
    exact ⟨⟨before, device_eq_ok_iff.mpr found⟩, unlisted⟩
  · rw [Array.getElem?_setIfInBounds_ne (Ne.symm equal)] at here
    exact ⟨⟨references, device_eq_ok_iff.mpr here⟩, unlisted⟩

theorem IsStray.of_placeOutput {source : DeviceId} (small : circuit.devices.size < UInt32.size)
    (placed : next = (circuit.placeOutput source).2) : circuit.IsStray id := by
  obtain ⟨⟨references, found⟩, unlisted⟩ := stray
  subst placed
  have old : id ∉ circuit.outputs ∧ id ≠ circuit.nextId := by
    simpa [placeOutput, not_or] using unlisted
  rw [device_eq_ok_iff, placeOutput, Array.getElem?_push] at found
  split at found
  · next last =>
    rw [← DeviceId.index_ofIndex_of_lt small] at last
    exact absurd (DeviceId.index_injective last) old.2
  · exact ⟨⟨references, device_eq_ok_iff.mpr found⟩, old.1⟩

theorem IsStray.of_assigns (assigns : ReflTransGen Assigns circuit next) :
    circuit.IsStray id := by
  induction assigns using ReflTransGen.head_induction_on with
  | refl => exact stray
  | head assign _ inductionHypothesis =>
    obtain ⟨_, held, value, found, rfl⟩ := assign
    have same : Device.SameSort (.inputPin value) (.inputPin held) := ⟨rfl, rfl, rfl⟩
    exact inductionHypothesis.of_set found same rfl rfl

end Stray

theorem isStray_of_addInputs {circuit : Circuit} {count : Nat} {id : DeviceId}
    (stray : (circuit.addInputs count).IsStray id) : circuit.IsStray id := by
  induction count generalizing circuit with
  | zero => exact stray
  | succ count inductionHypothesis => exact (inductionHypothesis stray).of_push rfl rfl rfl

theorem isStray_of_orUnchanged {circuit : Circuit} {answer : Except Misuse Circuit} {id : DeviceId}
    (kept : ∀ changed, answer = .ok changed → changed.IsStray id → circuit.IsStray id)
    (stray : (circuit.orUnchanged answer).2.IsStray id) : circuit.IsStray id := by
  cases answer with
  | error misuse => exact stray
  | ok changed => exact kept changed rfl stray

/-- An operation leaves an output pin outside the list only if it could not connect it. -/
theorem isStray_of_perform {circuit : Circuit} (small : circuit.devices.size < UInt32.size)
    (operation : Operation) {id : DeviceId} (stray : (operation.perform circuit).2.IsStray id) :
    circuit.IsStray id ∨ ∃ source misuse, operation = .addOutput source ∧ circuit.nextId = id ∧
      (operation.perform circuit).1 = .error misuse := by
  cases operation with
  | addInput | addGate kind => exact Or.inl (stray.of_push rfl rfl rfl)
  | addInputs count => exact Or.inl (isStray_of_addInputs stray)
  | addOutput source =>
    simp only [Operation.perform] at stray ⊢
    rcases addOutput_cases small source with ⟨_, answer⟩ | ⟨_, misuse, answer⟩
    · rw [answer] at stray
      exact Or.inl (stray.of_placeOutput small rfl)
    · rw [answer] at stray ⊢
      refine (stray.of_pushStray small rfl rfl).imp_right fun placed => ?_
      exact ⟨source, misuse, rfl, placed, rfl⟩
  | connect device source =>
    refine Or.inl (isStray_of_orUnchanged (fun connected connects stray => ?_) stray)
    obtain ⟨_, device, extended, found, added, rfl⟩ := connect_eq_ok_iff.mp connects
    exact stray.of_set found (Device.sameSort_of_addReference added) rfl rfl
  | setInput number value =>
    refine Or.inl (isStray_of_orUnchanged (fun assigned sets stray => ?_) stray)
    exact stray.of_assigns (ReflTransGen.single (assigns_of_setInput sets))
  | setInputs values =>
    refine Or.inl (isStray_of_orUnchanged (fun assigned sets stray => ?_) stray)
    exact stray.of_assigns (assigns_of_setInputs sets)
  | sort =>
    refine Or.inl ?_
    cases sorts : circuit.sort with
    | error failure => simpa only [Operation.perform, sorts] using stray
    | ok sorted =>
      simp only [Operation.perform, sorts] at stray
      obtain ⟨_, rfl⟩ := sort_eq_ok_iff.mp sorts
      exact stray
  | truthTable => exact Or.inl (stray.of_assigns (assigns_truthTable circuit))
  | outputFunctions => exact Or.inl (stray.of_assigns (assigns_outputFunctions circuit))

/-! ### Histories -/

theorem ofOperations_concat (operations : List Operation) (last : Operation) :
    ofOperations (operations ++ [last]) = (last.perform (ofOperations operations)).2 :=
  List.foldl_concat ..

/-- An output pin outside the list was placed by an operation that could not connect it. -/
theorem exists_failure_of_isStray {operations : List Operation} {id : DeviceId}
    (small : (ofOperations operations).devices.size < UInt32.size)
    (stray : (ofOperations operations).IsStray id) :
    ∃ earlier source later misuse, operations = earlier ++ .addOutput source :: later ∧
      (ofOperations earlier).nextId = id ∧
      ((Operation.addOutput source).perform (ofOperations earlier)).1 = .error misuse := by
  induction operations using List.reverseRecOn with
  | nil =>
    obtain ⟨⟨references, found⟩, _⟩ := stray
    cases found
  | append_singleton operations last inductionHypothesis =>
    rw [ofOperations_concat] at small stray
    have before := Nat.lt_of_le_of_lt (size_le_perform _ last) small
    rcases isStray_of_perform before last stray with older | ⟨source, misuse, rfl, placed, fails⟩
    · obtain ⟨earlier, source, later, misuse, rfl, placed, fails⟩ :=
        inductionHypothesis before older
      exact ⟨earlier, source, later ++ [last], misuse, by simp, placed, fails⟩
    · exact ⟨operations, source, [], misuse, rfl, placed, fails⟩

/-! ### Lists and arena -/

/-- The lists of the circuit are ascending, have no common entries, and hold the input pins, the
gates and some output pins of its arena. -/
structure IsIndexed (circuit : Circuit) : Prop where
  inputs_ascending : circuit.inputs.toList.Pairwise (·.index < ·.index)
  gates_ascending : circuit.gates.toList.Pairwise (·.index < ·.index)
  outputs_ascending : circuit.outputs.toList.Pairwise (·.index < ·.index)
  inputs_disjoint_gates : circuit.inputs.toList.Disjoint circuit.gates.toList
  inputs_disjoint_outputs : circuit.inputs.toList.Disjoint circuit.outputs.toList
  gates_disjoint_outputs : circuit.gates.toList.Disjoint circuit.outputs.toList
  mem_inputs_iff : ∀ id, id ∈ circuit.inputs ↔ ∃ value, circuit.device id = .ok (.inputPin value)
  mem_gates_iff : ∀ id, id ∈ circuit.gates ↔
    ∃ kind references, circuit.device id = .ok (.gate kind references)
  /-- A listed output pin has a reference. -/
  of_mem_outputs : ∀ id ∈ circuit.outputs,
    ∃ first others, circuit.device id = .ok (.outputPin (first :: others))
  /-- A reference names a device that is no output pin. -/
  of_mem_references : ∀ device ∈ circuit.devices, ∀ reference ∈ device.references,
    ∃ source, circuit.device reference = .ok source ∧ source.isOutputPin = false

/-- The values of the input pins, evaluated one by one. The value of any other device would have to
be asked for. -/
def evaluateInputs (circuit : Circuit) (ask : DeviceId → Except Misuse Bool) :
    Except Misuse (List Bool) :=
  circuit.inputs.toList.mapM fun id => do
    let device ← circuit.device id
    device.evaluate ask

theorem entry_eq_ok_iff {list : Array DeviceId} {position : Nat} {id : DeviceId} :
    entry list position = .ok id ↔ list[position]? = some id := by
  unfold entry
  split <;> simp_all

/-- Numbers count from one, and positions from zero. -/
theorem exists_position_iff_entry {list : Array DeviceId} {id : DeviceId} {number : Nat} :
    (∃ position : Nat, list[position]? = some id ∧ number = position + 1) ↔
      1 ≤ number ∧ entry list (number - 1) = .ok id := by
  rw [entry_eq_ok_iff]
  constructor
  · rintro ⟨position, listed, rfl⟩
    exact ⟨Nat.le_add_left .., listed⟩
  · rintro ⟨positive, listed⟩
    exact ⟨number - 1, listed, (Nat.sub_add_cancel positive).symm⟩

section WellFormed

variable {circuit : Circuit} (wellFormed : circuit.WellFormed)
  (small : circuit.devices.size ≤ UInt32.size)

include wellFormed small

theorem isIndexed_of_wellFormed : circuit.IsIndexed := by
  refine
    { inputs_ascending := wellFormed.pairwise_inputs small
      gates_ascending := wellFormed.pairwise_gates small
      outputs_ascending := wellFormed.pairwise_outputs small
      inputs_disjoint_gates := fun id pin gate => ?_
      inputs_disjoint_outputs := fun id pin output => ?_
      gates_disjoint_outputs := fun id gate output => ?_
      mem_inputs_iff := fun id => ?_
      mem_gates_iff := fun id => ?_
      of_mem_outputs := fun id member => ?_
      of_mem_references := fun device listed reference member => ?_ }
  · obtain ⟨_, found⟩ := (wellFormed.mem_inputs small).mp (Array.mem_toList_iff.mp pin)
    obtain ⟨_, _, again⟩ := (wellFormed.mem_gates small).mp (Array.mem_toList_iff.mp gate)
    cases found.symm.trans again
  · obtain ⟨_, found⟩ := (wellFormed.mem_inputs small).mp (Array.mem_toList_iff.mp pin)
    obtain ⟨_, _, again⟩ := wellFormed.of_mem_outputs small (Array.mem_toList_iff.mp output)
    cases found.symm.trans again
  · obtain ⟨_, _, found⟩ := (wellFormed.mem_gates small).mp (Array.mem_toList_iff.mp gate)
    obtain ⟨_, _, again⟩ := wellFormed.of_mem_outputs small (Array.mem_toList_iff.mp output)
    cases found.symm.trans again
  · simp only [device_eq_ok_iff]
    exact wellFormed.mem_inputs small
  · simp only [device_eq_ok_iff]
    exact wellFormed.mem_gates small
  · simp only [device_eq_ok_iff]
    exact wellFormed.of_mem_outputs small member
  · obtain ⟨position, found⟩ := Array.mem_iff_getElem?.mp listed
    obtain ⟨source, here, notOutput⟩ := wellFormed.drives position device found reference member
    exact ⟨source, device_eq_ok_iff.mpr here, notOutput⟩

theorem inputNumber?_eq_some_iff_input {id : DeviceId} {number : Nat} :
    circuit.inputNumber? id = some number ↔ 1 ≤ number ∧ circuit.input (number - 1) = .ok id :=
  (wellFormed.inputNumber?_eq_some_iff small).trans exists_position_iff_entry

theorem gateNumber?_eq_some_iff_gate {id : DeviceId} {number : Nat} :
    circuit.gateNumber? id = some number ↔ 1 ≤ number ∧ circuit.gate (number - 1) = .ok id :=
  (wellFormed.gateNumber?_eq_some_iff small).trans exists_position_iff_entry

/-- The input pins are evaluated without asking, whatever the answers would be. -/
theorem evaluateInputs_eq_ok (ask : DeviceId → Except Misuse Bool) :
    circuit.evaluateInputs ask = .ok circuit.inputValues := by
  refine mapM_eq_ok fun id member => ?_
  obtain ⟨value, found⟩ := (wellFormed.mem_inputs small).mp (Array.mem_toList_iff.mp member)
  refine bind_eq_ok_iff.mpr ⟨_, device_eq_ok_iff.mpr found, ?_⟩
  rw [heldValue, found]
  rfl

end WellFormed

/-! ### Main statement -/

/-- After any history the lists describe the arena, and an output pin is outside the list only if an
earlier operation placed it and failed to connect it. Pins and gates are found by their numbers, and
numbered as they are found. The input pins hold their values themselves. -/
theorem arena_spec (operations : List Operation)
    (small : (ofOperations operations).devices.size < UInt32.size) :
    let circuit := ofOperations operations
    circuit.IsIndexed ∧
    (∀ id, circuit.IsStray id → ∃ earlier source later misuse,
      operations = earlier ++ .addOutput source :: later ∧ (ofOperations earlier).nextId = id ∧
      ((Operation.addOutput source).perform (ofOperations earlier)).1 = .error misuse) ∧
    (∀ id number, circuit.inputNumber? id = some number ↔
      1 ≤ number ∧ circuit.input (number - 1) = .ok id) ∧
    (∀ id number, circuit.gateNumber? id = some number ↔
      1 ≤ number ∧ circuit.gate (number - 1) = .ok id) ∧
    ∀ ask, circuit.evaluateInputs ask = .ok circuit.inputValues := by
  intro circuit
  have wellFormed : circuit.WellFormed := (reachable_ofOperations operations).wellFormed small
  have bounded := Nat.le_of_lt small
  exact ⟨isIndexed_of_wellFormed wellFormed bounded,
    fun id stray => exists_failure_of_isStray small stray,
    fun id number => inputNumber?_eq_some_iff_input wellFormed bounded,
    fun id number => gateNumber?_eq_some_iff_gate wellFormed bounded,
    fun ask => evaluateInputs_eq_ok wellFormed bounded ask⟩

/-- An output pin that was refused its source stays outside the list, also once it has been
connected. The input pin added after it is the second one, and the truth table of the unsorted
circuit fails halfway. -/
theorem isStray_of_refused_source :
    let operations : List Operation := [.addInput, .addGate .not, .connect (.ofIndex 1) (.ofIndex 0),
      .addOutput (.ofIndex 1), .addOutput (.ofIndex 2), .connect (.ofIndex 3) (.ofIndex 1),
      .addInput, .connect (.ofIndex 4) (.ofIndex 0), .setInputs [true, true], .truthTable]
    let circuit := ofOperations operations
    circuit.devices.size < UInt32.size ∧ circuit.IsIndexed ∧ circuit.IsStray (.ofIndex 3) ∧
      (∃ earlier source later misuse, operations = earlier ++ .addOutput source :: later ∧
        (ofOperations earlier).nextId = .ofIndex 3 ∧
        ((Operation.addOutput source).perform (ofOperations earlier)).1 = .error misuse) ∧
      circuit.inputNumber? (.ofIndex 4) = some 2 ∧
      circuit.evaluateInputs (fun _ => .error .noReference) = .ok [false, false] := by
  intro operations circuit
  have small : circuit.devices.size < UInt32.size := by decide
  obtain ⟨indexed, strays, inputNumbers, _, evaluates⟩ := arena_spec operations small
  have outputs : circuit.outputs = #[.ofIndex 2] := by decide
  have unlisted : .ofIndex 3 ∉ circuit.outputs := by
    rw [outputs, Array.mem_singleton]
    decide
  have stray : circuit.IsStray (.ofIndex 3) := ⟨⟨[.ofIndex 1], by decide⟩, unlisted⟩
  have values : circuit.inputValues = [false, false] := by decide
  refine ⟨small, indexed, stray, strays _ stray, ?_, ?_⟩
  · exact (inputNumbers _ _).mpr ⟨by decide, by decide⟩
  · rw [← values]
    exact evaluates _

end Circuit

end Combinational
