/-
This file compares circuits that differ only in references which evaluation ignores.

A Not gate or an output pin uses its first reference. Appending another one may change the
evaluation order of the circuit, but the same valuation settles the devices before and after, and
the same depths belong to the gates. So no output changes.

The depth of the circuit is another matter. It is measured at all references of the output pins,
the ignored ones included. An ignored reference of an output pin counts as if the pin forwarded it.
-/

import Combinational.Proofs.SignalPaths
import Combinational.Proofs.Sweeps

namespace Combinational

/-! ### Devices without ignored references -/

namespace Device

/-- The device without the references that evaluation ignores. -/
def pruned : Device → Device
  | outputPin references => outputPin (references.take 1)
  | gate .not references => gate .not (references.take 1)
  | device => device

/-- Whether the device uses its first reference only, and has it. -/
def UsesFirst : Device → Prop
  | outputPin references | gate .not references => references ≠ []
  | inputPin _ | gate .and _ | gate .or _ => False

theorem references_pruned (device : Device) : device.pruned.references = device.usedReferences := by
  match device with
  | inputPin _ | outputPin _ | gate .and _ | gate .or _ | gate .not _ => rfl

theorem output_pruned (valuation : DeviceId → Bool) (device : Device) :
    device.pruned.output valuation = device.output valuation := by
  match device with
  | inputPin _ | gate .and _ | gate .or _ => rfl
  | outputPin [] | outputPin (_ :: _) | gate .not [] | gate .not (_ :: _) => rfl

theorem isConnected_pruned {device : Device} : device.pruned.IsConnected ↔ device.IsConnected := by
  match device with
  | inputPin _ | gate .and _ | gate .or _ => exact Iff.rfl
  | outputPin [] | outputPin (_ :: _) | gate .not [] | gate .not (_ :: _) =>
    simp [pruned, IsConnected]

theorem pruned_withPin (value : Bool) (device : Device) :
    (device.withPin value).pruned = device.pruned.withPin value := by
  match device with
  | inputPin _ | outputPin _ | gate .and _ | gate .or _ | gate .not _ => rfl

theorem kind?_pruned (device : Device) : device.pruned.kind? = device.kind? := by
  match device with
  | inputPin _ | outputPin _ | gate .and _ | gate .or _ | gate .not _ => rfl

theorem UsesFirst.exists_outputPin {device : Device} (usesFirst : device.UsesFirst)
    (isPin : device.isGate = false) : ∃ references, device = outputPin references := by
  cases device with
  | inputPin _ => cases usesFirst
  | outputPin references => exact ⟨references, rfl⟩
  | gate _ _ => cases isPin

/-- A reference after the one that is used changes nothing but itself. -/
theorem pruned_of_addReference {device extended : Device} {reference : DeviceId}
    (usesFirst : device.UsesFirst) (added : device.addReference reference = .ok extended) :
    extended.pruned = device.pruned := by
  match device, usesFirst with
  | outputPin (_ :: _), _ | gate .not (_ :: _), _ =>
    obtain rfl := Except.ok.inj added
    rfl
  | outputPin [], referring | gate .not [], referring => exact absurd rfl referring

end Device

namespace Circuit

/-! ### Circuits that use the same references -/

/-- The circuits have the same lists and differ in ignored references and the order of the gates
at most. -/
structure UsesAlike (circuit other : Circuit) : Prop where
  inputs_eq : other.inputs = circuit.inputs
  gates_eq : other.gates = circuit.gates
  outputs_eq : other.outputs = circuit.outputs
  /-- Corresponding devices use the same references. -/
  devices_eq : ∀ position : Nat, other.devices[position]?.map Device.pruned =
    circuit.devices[position]?.map Device.pruned

namespace UsesAlike

variable {circuit other : Circuit} (alike : circuit.UsesAlike other)

include alike

theorem isListed_iff {id : DeviceId} : other.IsListed id ↔ circuit.IsListed id := by
  rw [IsListed, IsListed, alike.inputs_eq, alike.gates_eq, alike.outputs_eq]

theorem exists_device {position : Nat} {device : Device}
    (found : circuit.devices[position]? = some device) :
    ∃ counterpart, other.devices[position]? = some counterpart ∧
      counterpart.pruned = device.pruned := by
  have same := alike.devices_eq position
  rw [found, Option.map_some] at same
  exact Option.map_eq_some_iff.mp same

theorem withPins (value : DeviceId → Bool) :
    (circuit.withPins value).UsesAlike (other.withPins value) where
  inputs_eq := alike.inputs_eq
  gates_eq := alike.gates_eq
  outputs_eq := alike.outputs_eq
  devices_eq position := by
    have commute : Device.pruned ∘ Device.withPin (value (.ofIndex position)) =
        Device.withPin (value (.ofIndex position)) ∘ Device.pruned :=
      funext (Device.pruned_withPin _)
    rw [getElem?_withPins, getElem?_withPins, Option.map_map, Option.map_map, commute,
      ← Option.map_map, ← Option.map_map, alike.devices_eq]

theorem settlesConnected {valuation : DeviceId → Bool} {id : DeviceId}
    (settles : circuit.SettlesConnected valuation id) : other.SettlesConnected valuation id := by
  obtain ⟨device, found, connected, value⟩ := settles
  obtain ⟨counterpart, foundToo, same⟩ := alike.exists_device found
  refine ⟨counterpart, foundToo, ?_, ?_⟩
  · rwa [← Device.isConnected_pruned, same, Device.isConnected_pruned]
  · rw [value, ← Device.output_pruned, ← same, Device.output_pruned]

theorem fits_depth {depths : DeviceId → Nat} (fits : Rule.depth.Fits circuit depths) :
    Rule.depth.Fits other depths where
  pin position id listed := fits.pin position id (alike.inputs_eq ▸ listed)
  gate id member kind references found := by
    have same := alike.devices_eq id.index
    rw [found, Option.map_some] at same
    obtain ⟨device, foundBefore, counterpart⟩ := Option.map_eq_some_iff.mp same.symm
    have sameKind : device.kind? = some kind := by
      rw [← Device.kind?_pruned, counterpart, Device.kind?_pruned]
      rfl
    have sameUse := congrArg Device.references counterpart
    rw [Device.references_pruned, Device.references_pruned] at sameUse
    cases device with
    | inputPin _ | outputPin _ => cases sameKind
    | gate sameKindOfGate sources =>
      obtain rfl := Option.some.inj sameKind
      rw [fits.gate id (alike.gates_eq ▸ member) _ sources foundBefore]
      show (Rule.used _ _).foldl max 0 + 1 = (Rule.used _ _).foldl max 0 + 1
      rw [← Rule.map_usedReferences, sameUse, Rule.map_usedReferences]

/-- For the same values of the input pins, each device has the same output in both circuits. -/
theorem exists_deviceOutput (reachable : circuit.Reachable)
    (small : circuit.devices.size < UInt32.size) (sorted : circuit.isSorted = true)
    (nots : circuit.HasConnectedNots) (otherReachable : other.Reachable)
    (otherSmall : other.devices.size < UInt32.size) (otherSorted : other.isSorted = true)
    {values : List Bool} (length : values.length = circuit.inputCount) :
    ∃ before after, circuit.setInputs values = .ok before ∧ other.setInputs values = .ok after ∧
      ∀ id, circuit.IsListed id →
        ∃ value, before.deviceOutput id = .ok value ∧ after.deviceOutput id = .ok value := by
  have wellFormed := reachable.wellFormed small
  have otherWellFormed := otherReachable.wellFormed otherSmall
  obtain ⟨held, valuation, assigns, given, assignedWellFormed, ordered, settles⟩ :=
    exists_valuation reachable small sorted nots length
  have assignedSmall := (size_withPins circuit held).trans_le small.le
  have otherAssignedSmall := (size_withPins other held).trans_le otherSmall.le
  have otherLength : values.length = other.inputCount := by
    rw [length, inputCount, inputCount, alike.inputs_eq]
  have otherAssigns : other.setInputs values = .ok (other.withPins held) := by
    rw [setInputs_eq otherWellFormed otherSmall.le otherLength,
      assigned_eq_withPins otherWellFormed otherSmall.le otherLength]
    exact fun position id listed => given position id (alike.inputs_eq ▸ listed)
  have otherOrdered : (other.withPins held).IsEvaluationOrder (other.withPins held).order.toList :=
    (hasCurrentOrder_withPins otherReachable otherSmall held).isEvaluationOrder otherSorted
  refine ⟨_, _, assigns, otherAssigns, fun id listed => ⟨valuation id, ?_, ?_⟩⟩
  · exact deviceOutput_eq_ok assignedWellFormed assignedSmall ordered sorted settles listed
  · exact deviceOutput_eq_ok (wellFormed_withPins otherReachable otherSmall held)
      otherAssignedSmall otherOrdered otherSorted
      (fun id listed => (alike.withPins held).settlesConnected
        (settles id (alike.isListed_iff.mp listed)))
      (alike.isListed_iff.mpr listed)

end UsesAlike

/-! ### One more reference -/

theorem mem_references_withReference {circuit : Circuit} {id source : DeviceId}
    {device extended : Device} (found : circuit.devices[id.index]? = some device)
    (added : device.addReference source = .ok extended) {consumer reference : DeviceId} :
    reference ∈ (circuit.withReference id extended).references consumer ↔
      reference ∈ circuit.references consumer ∨ (consumer = id ∧ reference = source) := by
  rcases eq_or_ne consumer id with rfl | different
  · have here : (circuit.withReference consumer extended).devices[consumer.index]? =
        some extended := getElem?_setIfInBounds_of_some found
    rw [references_of_getElem? here, references_of_getElem? found,
      Device.references_of_addReference added, List.mem_append, List.mem_singleton,
      and_iff_right rfl]
  · have there : (circuit.withReference id extended).references consumer =
        circuit.references consumer := by
      unfold withReference references
      rw [getElem?_setIfInBounds_other different]
    rw [there, or_iff_left fun same => different same.1]

section Connecting

variable {circuit resorted : Circuit} {id source : DeviceId} {device extended : Device}
  (found : circuit.devices[id.index]? = some device)
  (added : device.addReference source = .ok extended)
  (sorts : (circuit.withReference id extended).sort = .ok resorted)

include found added sorts

theorem usesAlike_of_connect_sort (usesFirst : device.UsesFirst) : circuit.UsesAlike resorted := by
  obtain ⟨_, rfl⟩ := sort_eq_ok_iff.mp sorts
  refine ⟨rfl, rfl, rfl, fun position => ?_⟩
  show (circuit.devices.setIfInBounds id.index extended)[position]?.map Device.pruned = _
  rcases eq_or_ne id.index position with rfl | elsewhere
  · rw [getElem?_setIfInBounds_of_some found, found, Option.map_some, Option.map_some,
      Device.pruned_of_addReference usesFirst added]
  · rw [Array.getElem?_setIfInBounds_ne elsewhere]

theorem mem_drivers_of_connect_sort {driver : DeviceId} :
    driver ∈ resorted.outputs.toList.flatMap resorted.references ↔
      driver ∈ circuit.outputs.toList.flatMap circuit.references ∨
        (id ∈ circuit.outputs ∧ driver = source) := by
  obtain ⟨_, rfl⟩ := sort_eq_ok_iff.mp sorts
  show driver ∈ circuit.outputs.toList.flatMap (circuit.withReference id extended).references ↔ _
  simp only [List.mem_flatMap, Array.mem_toList_iff, mem_references_withReference found added]
  constructor
  · rintro ⟨output, member, referenced | ⟨rfl, same⟩⟩
    · exact Or.inl ⟨output, member, referenced⟩
    · exact Or.inr ⟨member, same⟩
  · rintro (⟨output, member, referenced⟩ | ⟨member, same⟩)
    · exact ⟨output, member, Or.inl referenced⟩
    · exact ⟨id, member, Or.inr ⟨rfl, same⟩⟩

/-- What is deepest among the references of the output pins when one more is appended. -/
theorem deepest_of_connect_sort (depths : DeviceId → Nat) :
    ((resorted.outputs.toList.flatMap resorted.references).map depths).foldl max 0 =
      max (((circuit.outputs.toList.flatMap circuit.references).map depths).foldl max 0)
        (if id ∈ circuit.outputs then depths source else 0) := by
  refine eq_of_forall_ge_iff fun bound => ?_
  rw [max_le_iff, foldl_max_le_iff, foldl_max_le_iff, List.forall_mem_map, List.forall_mem_map]
  simp only [mem_drivers_of_connect_sort found added sorts]
  constructor
  · intro below
    refine ⟨fun driver member => below driver (Or.inl member), ?_⟩
    split
    · next listed => exact below source (Or.inr ⟨listed, rfl⟩)
    · exact Nat.zero_le bound
  · rintro ⟨below, sourceBelow⟩ driver (member | ⟨listed, rfl⟩)
    · exact below driver member
    · rwa [if_pos listed] at sourceBelow

end Connecting

theorem HasConnectedGates.hasConnectedNots {circuit : Circuit}
    (connected : circuit.HasConnectedGates) : circuit.HasConnectedNots :=
  hasConnectedNots_of_connected connected

/-- In a sorted circuit whose gates are connected, one more reference of a Not gate or of an output
pin changes no output of a device, even though the gates may be sorted differently. The depth stays
the same for a Not gate. For an output pin, the paths to the ignored source are counted too. -/
theorem connect_ignored_spec {circuit connected resorted : Circuit}
    (constructed : circuit.IsConstructed) (small : circuit.devices.size < UInt32.size)
    (sorted : circuit.isSorted = true) (connectedGates : circuit.HasConnectedGates)
    {id source : DeviceId} {device : Device} (found : circuit.device id = .ok device)
    (usesFirst : device.UsesFirst) (connects : circuit.connect id source = .ok connected)
    (sorts : connected.sort = .ok resorted) :
    (∀ values : List Bool, values.length = circuit.inputCount →
      ∃ before after, circuit.setInputs values = .ok before ∧
        resorted.setInputs values = .ok after ∧
        ∀ listed, circuit.IsListed listed →
          ∃ value, before.deviceOutput listed = .ok value ∧
            after.deviceOutput listed = .ok value) ∧
    ∃ before after, circuit.statistics = .ok before ∧ resorted.statistics = .ok after ∧
      (device.isGate = true → after.depth = before.depth) ∧
      (device.isGate = false → ∃ longest, IsGreatest (circuit.pathLengthsTo source) longest ∧
        after.depth = max before.depth longest) := by
  have wellFormed := constructed.reachable.wellFormed small
  have reconstructed : resorted.IsConstructed := by
    have performed := constructed.perform (.connect id source)
    simp only [Operation.perform, connects, orUnchanged, forall_const] at performed
    have further := performed.perform .sort
    simpa only [Operation.perform, sorts, forall_const] using further
  have resortedSorted : resorted.isSorted = true := isSorted_of_sort sorts
  rw [device_eq_ok_iff] at found
  obtain ⟨_, same, extended, sameFound, added, rfl⟩ := connect_eq_ok_iff.mp connects
  obtain rfl : device = same := Option.some.inj (found.symm.trans sameFound)
  have resortedSmall : resorted.devices.size < UInt32.size := by
    obtain ⟨_, rfl⟩ := sort_eq_ok_iff.mp sorts
    rwa [withReference, Array.size_setIfInBounds]
  have alike := usesAlike_of_connect_sort found added sorts usesFirst
  refine ⟨fun values length => ?_, ?_⟩
  · exact alike.exists_deviceOutput constructed.reachable small sorted
      connectedGates.hasConnectedNots reconstructed.reachable resortedSmall resortedSorted length
  obtain ⟨depths, fits⟩ := exists_fits_depth constructed small sorted
  obtain ⟨before, computed, depth⟩ := exists_statistics_depth constructed small sorted fits
  obtain ⟨after, recomputed, newDepth⟩ :=
    exists_statistics_depth reconstructed resortedSmall resortedSorted (alike.fits_depth fits)
  rw [deepest_of_connect_sort found added sorts, ← depth] at newDepth
  refine ⟨before, after, computed, recomputed, fun isGate => ?_, fun isPin => ?_⟩
  · have unlisted : id ∉ circuit.outputs := by
      intro member
      obtain ⟨_, _, outputFound⟩ := wellFormed.of_mem_outputs small.le member
      obtain rfl := Option.some.inj (found.symm.trans outputFound)
      cases isGate
    rw [newDepth, if_neg unlisted, Nat.max_zero]
  · have member : id ∈ circuit.outputs := by
      obtain ⟨references, rfl⟩ := usesFirst.exists_outputPin isPin
      exact constructed.mem_outputs_of_device small (device_eq_ok_iff.mpr found)
    have driven : source ∈ resorted.references id := by
      obtain ⟨_, rfl⟩ := sort_eq_ok_iff.mp sorts
      exact (mem_references_withReference found added).mpr (Or.inr ⟨rfl, rfl⟩)
    have listed := (reconstructed.reachable.wellFormed resortedSmall).mem_inputs_or_mem_gates
      resortedSmall.le driven
    rw [alike.inputs_eq, alike.gates_eq] at listed
    refine ⟨depths source, ?_, ?_⟩
    · exact isGreatest_pathLengthsTo fits wellFormed small.le connectedGates listed
    · rw [newDepth, if_pos member]

/-- The Not gate is sorted first, and the Or gate that only reads the pin last. Once the Not gate
references that Or gate, it has to come after it. -/
theorem depth_ignored_reference_of_gate :
    let circuit := ofOperations [.addInput, .addGate .or, .addGate .or, .addGate .not,
      .connect (.ofIndex 1) (.ofIndex 0), .connect (.ofIndex 2) (.ofIndex 3),
      .connect (.ofIndex 3) (.ofIndex 0), .addOutput (.ofIndex 2), .sort]
    let connected := (Operation.connect (.ofIndex 3) (.ofIndex 1)).perform circuit
    let resorted := (Operation.sort.perform connected.2).2
    circuit.IsConstructed ∧ circuit.devices.size < UInt32.size ∧ circuit.isSorted = true ∧
      circuit.HasConnectedGates ∧
      circuit.device (.ofIndex 3) = .ok (.gate .not [.ofIndex 0]) ∧
      circuit.connect (.ofIndex 3) (.ofIndex 1) = .ok connected.2 ∧
      connected.2.sort = .ok resorted ∧ resorted.order ≠ circuit.order ∧
      ∃ before after, circuit.statistics = .ok before ∧ resorted.statistics = .ok after ∧
        after.depth = before.depth := by
  intro circuit connected resorted
  have constructed : circuit.IsConstructed := isConstructed_ofOperations (by decide)
  have small : circuit.devices.size < UInt32.size := by decide
  have sorted : circuit.isSorted = true := by decide
  have connectedGates : circuit.HasConnectedGates := by decide
  have found : circuit.device (.ofIndex 3) = .ok (.gate .not [.ofIndex 0]) := by decide
  have connects : circuit.connect (.ofIndex 3) (.ofIndex 1) = .ok connected.2 := by decide
  have sorts : connected.2.sort = .ok resorted := by decide
  obtain ⟨_, before, after, computed, recomputed, kept, _⟩ :=
    connect_ignored_spec constructed small sorted connectedGates found (List.cons_ne_nil _ _)
      connects sorts
  exact ⟨constructed, small, sorted, connectedGates, found, connects, sorts, by decide, before,
    after, computed, recomputed, kept rfl⟩

/-- An output pin that forwards an input pin has depth zero. When it references a gate as well,
the depth is one, although no output changes. -/
theorem depth_ignored_reference_of_output :
    let circuit := ofOperations [.addInput, .addGate .not, .connect (.ofIndex 1) (.ofIndex 0),
      .addOutput (.ofIndex 0), .sort]
    let connected := (Operation.connect (.ofIndex 2) (.ofIndex 1)).perform circuit
    let resorted := (Operation.sort.perform connected.2).2
    circuit.IsConstructed ∧ circuit.devices.size < UInt32.size ∧ circuit.isSorted = true ∧
      circuit.HasConnectedGates ∧
      circuit.device (.ofIndex 2) = .ok (.outputPin [.ofIndex 0]) ∧
      circuit.connect (.ofIndex 2) (.ofIndex 1) = .ok connected.2 ∧
      connected.2.sort = .ok resorted ∧
      circuit.statistics.map (·.depth) = .ok 0 ∧ resorted.statistics.map (·.depth) = .ok 1 :=
  ⟨isConstructed_ofOperations (by decide), by decide, by decide, by decide, by decide, by decide,
    by decide, by decide, by decide⟩

end Circuit

end Combinational
