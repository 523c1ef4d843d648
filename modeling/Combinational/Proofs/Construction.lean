/-
This file describes the circuits that operations produce when none of them is misused.

The only devices outside the lists of a circuit are output pins that could not be connected. Where
no operation fails there are none, so the three lists together are as long as the arena, and a table
with an entry for each of their members has one for every device.
-/

import Combinational.Proofs.Indexing
import Mathlib.Data.List.Perm.Subperm

namespace Combinational

namespace Circuit

/-! ### Operations that succeed -/

/-- The circuit results from some operations, of which none was misused. -/
inductive IsConstructed : Circuit → Prop
  /-- The empty circuit. -/
  | empty : IsConstructed empty
  /-- One more operation. -/
  | perform {circuit : Circuit} (operation : Operation) (constructed : IsConstructed circuit)
    (accepted : (operation.perform circuit).1 = .ok ()) :
    IsConstructed (operation.perform circuit).2

theorem IsConstructed.reachable {circuit : Circuit} (constructed : circuit.IsConstructed) :
    circuit.Reachable := by
  induction constructed with
  | empty => exact Reachable.empty
  | perform operation _ _ inductionHypothesis => exact inductionHypothesis.perform operation

/-- Whether none of some operations is misused when they are performed one after the other. -/
def Accepts : Circuit → List Operation → Prop
  | _, [] => True
  | circuit, operation :: operations =>
    (operation.perform circuit).1 = .ok () ∧ Accepts (operation.perform circuit).2 operations

instance decidableAccepts : (circuit : Circuit) → (operations : List Operation) →
    Decidable (circuit.Accepts operations)
  | _, [] => inferInstanceAs (Decidable True)
  | circuit, operation :: operations =>
    have := decidableAccepts (operation.perform circuit).2 operations
    inferInstanceAs (Decidable ((operation.perform circuit).1 = .ok () ∧ _))

theorem isConstructed_ofOperations {operations : List Operation}
    (accepted : empty.Accepts operations) : (ofOperations operations).IsConstructed := by
  have further : ∀ (operations : List Operation) (circuit : Circuit), circuit.IsConstructed →
      circuit.Accepts operations →
      (operations.foldl (fun circuit operation => (operation.perform circuit).2)
        circuit).IsConstructed := by
    intro operations
    induction operations with
    | nil => exact fun _ constructed _ => constructed
    | cons operation operations inductionHypothesis =>
      exact fun _ constructed accepted =>
        inductionHypothesis _ (constructed.perform operation accepted.1) accepted.2
  exact further operations empty IsConstructed.empty accepted

/-! ### Every device is listed -/

/-- Each position of an arena is that of an input pin, a gate or an output pin. -/
theorem length_positions (devices : Array Device) :
    devices.size = (positions devices Device.isInputPin).length +
      (positions devices Device.isGate).length +
      (positions devices Device.isOutputPin).length := by
  have sum : ∀ places : List Nat, (∀ place ∈ places, place < devices.size) →
      places.length =
        (places.filter fun place => devices[place]?.any Device.isInputPin).length +
        (places.filter fun place => devices[place]?.any Device.isGate).length +
        (places.filter fun place => devices[place]?.any Device.isOutputPin).length := by
    intro places
    induction places with
    | nil => exact fun _ => rfl
    | cons place places inductionHypothesis =>
      intro inside
      obtain ⟨here, others⟩ := List.forall_mem_cons.mp inside
      have rest := inductionHypothesis others
      have found := Array.getElem?_eq_getElem here
      cases device : devices[place] <;>
        simp [found, device, Device.isInputPin, Device.isOutputPin, rest] <;> omega
  have whole := sum (List.range devices.size) fun place member => List.mem_range.mp member
  rwa [List.length_range] at whole

namespace IsConstructed

variable {circuit : Circuit} (constructed : circuit.IsConstructed)
  (small : circuit.devices.size < UInt32.size)

include constructed small

/-- No output pin is outside the list. -/
theorem not_isStray (id : DeviceId) : ¬ circuit.IsStray id := by
  induction constructed with
  | empty =>
    rintro ⟨⟨_, found⟩, _⟩
    cases found
  | perform operation _ accepted inductionHypothesis =>
    intro stray
    have before := Nat.lt_of_le_of_lt (size_le_perform _ operation) small
    rcases isStray_of_perform before operation stray with older | ⟨_, _, _, _, fails⟩
    · exact inductionHypothesis before older
    · rw [accepted] at fails
      cases fails

theorem mem_outputs_of_device {id : DeviceId} {references : List DeviceId}
    (found : circuit.device id = .ok (.outputPin references)) : id ∈ circuit.outputs := by
  by_contra unlisted
  exact constructed.not_isStray small id ⟨⟨references, found⟩, unlisted⟩

/-- There are as many entries in the lists as devices. -/
theorem size_devices :
    circuit.devices.size = circuit.inputCount + circuit.gateCount + circuit.outputCount := by
  have wellFormed := constructed.reachable.wellFormed small
  let pins := (positions circuit.devices Device.isOutputPin).map DeviceId.ofIndex
  have subset : pins ⊆ circuit.outputs.toList := by
    intro id member
    obtain ⟨device, found, isOutput⟩ := (mem_map_positions (Nat.le_of_lt small)).mp member
    obtain ⟨references, rfl⟩ := Device.isOutputPin_iff.mp isOutput
    exact Array.mem_toList_iff.mpr
      (constructed.mem_outputs_of_device small (device_eq_ok_iff.mpr found))
  have distinct : pins.Nodup := nodup_of_pairwise_index (pairwise_map_positions (Nat.le_of_lt small))
  have outputs : circuit.outputs.toList = pins :=
    wellFormed.outputs_sublist.eq_of_length_le (distinct.subperm subset).length_le
  have inputCount : circuit.inputCount = _ := congrArg List.length wellFormed.inputs_eq
  have gateCount : circuit.gateCount = _ := congrArg List.length wellFormed.gates_eq
  have outputCount : circuit.outputCount = _ := congrArg List.length outputs
  rw [inputCount, gateCount, outputCount, List.length_map, List.length_map, List.length_map]
  exact length_positions circuit.devices

end IsConstructed

end Circuit

end Combinational
