/-
This file computes what the simulations over all assignments find and leave behind.

Assigning all the input pins forgets what they held before, so each step of a sweep finds the row of
its pattern, whatever the steps before it were. A sweep therefore folds the rows of its patterns in
their order and leaves the pins at the last pattern. No row depends on the values that the pins held
when the sweep began.
-/

import Combinational.Proofs.Evaluation
import Combinational.Proofs.Patterns

namespace Combinational

namespace Circuit

/-! ### Assigned circuits -/

/-- The circuit whose input pins hold some values, in order. -/
def assigned (circuit : Circuit) (values : List Bool) : Circuit :=
  circuit.withPins (assign circuit.inputs.toList values fun _ => false)

/-- The values of the output pins for some values of the input pins, none if the circuit cannot be
evaluated. -/
def response (circuit : Circuit) (values : List Bool) : List Bool :=
  match (circuit.assigned values).outputValues with
  | .ok outputs => outputs
  | .error _ => []

/-- The row for some values of the input pins. -/
def rowFor (circuit : Circuit) (values : List Bool) : Row where
  inputs := values
  outputs := circuit.response values

theorem assigned_withPins (circuit : Circuit) (held : DeviceId → Bool) (values : List Bool) :
    (circuit.withPins held).assigned values = circuit.assigned values :=
  withPins_withPins ..

section Assigned

variable {circuit : Circuit} {values : List Bool} (wellFormed : circuit.WellFormed)
  (small : circuit.devices.size ≤ UInt32.size) (length : values.length = circuit.inputCount)

include wellFormed small length

theorem assign_of_mem_inputs {position : Nat} {id : DeviceId}
    (listed : circuit.inputs[position]? = some id) (held : DeviceId → Bool) :
    values[position]? = some (assign circuit.inputs.toList values held id) := by
  rw [← Array.getElem?_toList] at listed
  have inside : position < values.length := by
    obtain ⟨inside, _⟩ := List.getElem?_eq_some_iff.mp listed
    rwa [length, inputCount, ← Array.length_toList]
  have given := List.getElem?_eq_getElem inside
  rw [given, assign_of_getElem? (wellFormed.nodup_inputs small) listed given]

/-- Assigning all the pins forgets what they held. -/
theorem setInputs_eq_assigned (held : DeviceId → Bool) :
    (circuit.withPins held).setInputs values = .ok (circuit.assigned values) := by
  rw [setInputs_withPins wellFormed small length]
  refine congrArg Except.ok (withPins_congr wellFormed small fun id member => ?_)
  obtain ⟨position, listed⟩ := Array.mem_iff_getElem?.mp member
  have forgets := assign_of_mem_inputs wellFormed small length listed held
  exact Option.some.inj
    (forgets.symm.trans (assign_of_mem_inputs wellFormed small length listed fun _ => false))

theorem setInputs_eq : circuit.setInputs values = .ok (circuit.assigned values) := by
  have assigns := setInputs_eq_assigned wellFormed small length circuit.heldValue
  rwa [withPins_heldValue small] at assigns

theorem assigned_eq_withPins {held : DeviceId → Bool}
    (holds : ∀ (position : Nat) (id : DeviceId), circuit.inputs[position]? = some id →
      values[position]? = some (held id)) : circuit.assigned values = circuit.withPins held := by
  refine withPins_congr wellFormed small fun id member => ?_
  obtain ⟨position, listed⟩ := Array.mem_iff_getElem?.mp member
  have given := assign_of_mem_inputs wellFormed small length listed fun _ => false
  exact Option.some.inj (given.symm.trans (holds position id listed))

theorem inputValues_assigned : (circuit.assigned values).inputValues = values := by
  have sizes : circuit.inputs.toList.length = values.length := length.symm
  show circuit.inputs.toList.map (circuit.assigned values).heldValue = values
  refine List.ext_getElem (by rw [List.length_map, sizes]) fun position inside given => ?_
  rw [List.length_map] at inside
  have listed : circuit.inputs[position]? = some circuit.inputs.toList[position] := by
    rw [← Array.getElem?_toList, List.getElem?_eq_getElem inside]
  have held := assign_of_mem_inputs wellFormed small length listed fun _ => false
  rw [List.getElem?_eq_getElem given] at held
  have kept := heldValue_withPins wellFormed small (Array.mem_of_getElem? listed)
    (assign circuit.inputs.toList values fun _ => false)
  rw [List.getElem_map]
  exact kept.trans (Option.some.inj held).symm

end Assigned

/-- The circuit whose input pins all hold one value. -/
theorem assigned_replicate {circuit : Circuit} (wellFormed : circuit.WellFormed)
    (small : circuit.devices.size ≤ UInt32.size) (value : Bool) :
    circuit.assigned (List.replicate circuit.inputCount value) =
      circuit.withPins fun _ => value := by
  refine assigned_eq_withPins wellFormed small List.length_replicate fun position id listed => ?_
  have inside : position < circuit.inputCount := (Array.getElem?_eq_some_iff.mp listed).1
  rw [List.getElem?_replicate, if_pos inside]

/-- The circuit whose input pins are assigned the values of a function. -/
theorem assigned_map {circuit : Circuit} (wellFormed : circuit.WellFormed)
    (small : circuit.devices.size ≤ UInt32.size) (held : DeviceId → Bool) :
    circuit.assigned (circuit.inputs.toList.map held) = circuit.withPins held := by
  have length : (circuit.inputs.toList.map held).length = circuit.inputCount :=
    (List.length_map ..).trans Array.length_toList
  refine assigned_eq_withPins wellFormed small length fun position id listed => ?_
  rw [List.getElem?_map, Array.getElem?_toList, listed]
  rfl

/-- Whatever values its pins are given, a reachable circuit stays reachable. -/
theorem reachable_withPins {circuit : Circuit} (reachable : circuit.Reachable)
    (small : circuit.devices.size < UInt32.size) (held : DeviceId → Bool) :
    (circuit.withPins held).Reachable := by
  have wellFormed := reachable.wellFormed small
  have length : (circuit.inputs.toList.map held).length = circuit.inputCount :=
    (List.length_map ..).trans Array.length_toList
  have performed := reachable.perform (.setInputs (circuit.inputs.toList.map held))
  simp only [Operation.perform, setInputs_eq wellFormed small.le length, orUnchanged,
    assigned_map wellFormed small.le] at performed
  exact performed

theorem wellFormed_withPins {circuit : Circuit} (reachable : circuit.Reachable)
    (small : circuit.devices.size < UInt32.size) (held : DeviceId → Bool) :
    (circuit.withPins held).WellFormed :=
  (reachable_withPins reachable small held).wellFormed (by rwa [size_withPins])

theorem hasCurrentOrder_withPins {circuit : Circuit} (reachable : circuit.Reachable)
    (small : circuit.devices.size < UInt32.size) (held : DeviceId → Bool) :
    (circuit.withPins held).HasCurrentOrder :=
  (reachable_withPins reachable small held).hasCurrentOrder (by rwa [size_withPins])

/-! ### Rows -/

/-- Whether the circuit can be evaluated for all values of its input pins. -/
def Responds (circuit : Circuit) : Prop :=
  ∀ values : List Bool, values.length = circuit.inputCount →
    (circuit.assigned values).outputValues = .ok (circuit.response values)

/-- The response of a sorted circuit without unconnected Not gates solves the equations of its
devices. -/
theorem exists_solves_response {circuit : Circuit} (reachable : circuit.Reachable)
    (small : circuit.devices.size < UInt32.size) (sorted : circuit.isSorted = true)
    (nots : circuit.HasConnectedNots) {values : List Bool}
    (length : values.length = circuit.inputCount) :
    (circuit.assigned values).outputValues = .ok (circuit.response values) ∧
    ∃ valuation, circuit.Solves values valuation ∧
      circuit.response values = circuit.outputs.toList.map valuation := by
  have wellFormed := reachable.wellFormed small
  obtain ⟨held, valuation, _, given, heldWellFormed, ordered, settles⟩ :=
    exists_valuation reachable small sorted nots length
  have room : (circuit.withPins held).devices.size ≤ UInt32.size := by
    rw [size_withPins]
    exact small.le
  have outputs := outputValues_eq_ok heldWellFormed room ordered sorted settles
  rw [← assigned_eq_withPins wellFormed small.le length given] at outputs
  have responds : circuit.response values = circuit.outputs.toList.map valuation := by
    unfold response
    rw [outputs]
    rfl
  refine ⟨?_, valuation, solves_of_settles wellFormed small.le given settles, responds⟩
  rw [responds]
  exact outputs

theorem responds_of_isSorted {circuit : Circuit} (reachable : circuit.Reachable)
    (small : circuit.devices.size < UInt32.size) (sorted : circuit.isSorted = true)
    (nots : circuit.HasConnectedNots) : circuit.Responds :=
  fun _ length => (exists_solves_response reachable small sorted nots length).1

/-! ### Sweeps -/

section Sweeps

variable {circuit : Circuit} (wellFormed : circuit.WellFormed)
  (small : circuit.devices.size ≤ UInt32.size) (responds : circuit.Responds)

include wellFormed small responds

/-- A sweep folds the rows of its patterns, and leaves the pins at the last of them. -/
theorem sweep_withPins {Result : Type} {pattern : Nat → List Bool}
    (widths : ∀ number, (pattern number).length = circuit.inputCount)
    (keep : Result → Row → Result) (count number : Nat) (result : Result)
    (held : DeviceId → Bool) :
    sweep pattern keep count number result (circuit.withPins held) =
      (.ok (((List.range' number count).map fun number =>
          circuit.rowFor (pattern number)).foldl keep result),
        (List.range' number count).foldl (fun _ number => circuit.assigned (pattern number))
          (circuit.withPins held)) := by
  induction count generalizing number result held with
  | zero => rfl
  | succ count inductionHypothesis =>
    unfold sweep
    rw [setInputs_eq_assigned wellFormed small (widths number)]
    simp only
    rw [responds (pattern number) (widths number)]
    exact inductionHypothesis (number + 1) _ _

/-- A sweep that is not empty ends at its last pattern. -/
theorem sweep_eq {Result : Type} {pattern : Nat → List Bool}
    (widths : ∀ number, (pattern number).length = circuit.inputCount)
    (keep : Result → Row → Result) {count : Nat} (positive : 0 < count) (result : Result)
    (held : DeviceId → Bool) :
    sweep pattern keep count 0 result (circuit.withPins held) =
      (.ok (((List.range count).map fun number =>
          circuit.rowFor (pattern number)).foldl keep result),
        circuit.assigned (pattern (count - 1))) := by
  obtain ⟨before, rfl⟩ := Nat.exists_eq_add_of_le' positive
  rw [sweep_withPins wellFormed small responds widths, ← List.range_eq_range', List.range_succ,
    List.foldl_append]
  rfl

/-- An enumeration of all the assignments finds their rows in ascending order. It leaves the pins at
the last assignment, in which they are all true. -/
theorem sweepAssignments_withPins {Result : Type}
    (pins : 1 ≤ circuit.inputCount ∧ circuit.inputCount < 64) (keep : Result → Row → Result)
    (result : Result) (held : DeviceId → Bool) :
    (circuit.withPins held).sweepAssignments keep result =
      (.ok (((List.range (Pattern.count circuit.inputCount)).map fun number =>
          circuit.rowFor (Pattern.bigEndian circuit.inputCount number)).foldl keep result),
        circuit.withPins fun _ => true) := by
  have all : Assignments.all (circuit.withPins held).inputCount =
      .ok { width := circuit.inputCount, next := 0, stop := Pattern.count circuit.inputCount } := by
    show Assignments.all circuit.inputCount = _
    rw [Assignments.all, if_neg (by omega), if_neg (by omega)]
  unfold sweepAssignments
  rw [all]
  have sweeps := sweep_eq wellFormed small responds (Pattern.length_bigEndian circuit.inputCount)
    keep (Pattern.count_pos circuit.inputCount) result held
  rw [Pattern.bigEndian_last, assigned_replicate wellFormed small] at sweeps
  exact sweeps

end Sweeps

end Circuit

end Combinational
