/-
This file ties the lists of pins and gates of a circuit to its arena.

The input pins are exactly the devices of that kind, in the order of the arena, and so are the
gates. Output pins are listed in the order of the arena too, but an output pin that could not be
connected stays unlisted. Every reference names a device that may drive another one, and every
listed output pin is driven.

As long as the arena has fewer devices than there are identifiers, this determines membership in
the lists by looking into the arena.
-/

import Combinational.Circuit.Basic
import Mathlib.Data.List.Basic
import Mathlib.Data.List.Nodup

namespace Combinational

namespace Device

/-- Whether the device is an input pin. -/
def isInputPin : Device → Bool
  | inputPin _ => true
  | outputPin _ | gate _ _ => false

/-- Whether the device is an output pin. -/
def isOutputPin : Device → Bool
  | outputPin _ => true
  | inputPin _ | gate _ _ => false

/-- Whether two devices are of one sort: two input pins, two output pins or two gates. -/
def SameSort (first second : Device) : Prop :=
  first.isInputPin = second.isInputPin ∧ first.isOutputPin = second.isOutputPin ∧
    first.isGate = second.isGate

theorem sameSort_of_addReference {device extended : Device} {reference : DeviceId}
    (added : device.addReference reference = .ok extended) : SameSort extended device := by
  cases device <;> cases added <;> exact ⟨rfl, rfl, rfl⟩

theorem setValue_eq_ok {device assigned : Device} {value : Bool}
    (succeeds : device.setValue value = .ok assigned) :
    (∃ held, device = .inputPin held) ∧ assigned = .inputPin value := by
  cases device <;> cases succeeds
  exact ⟨⟨_, rfl⟩, rfl⟩

theorem isGate_iff {device : Device} :
    device.isGate = true ↔ ∃ kind references, device = .gate kind references := by
  cases device <;> simp

theorem isInputPin_iff {device : Device} :
    device.isInputPin = true ↔ ∃ value, device = .inputPin value := by
  cases device <;> simp [isInputPin]

theorem isOutputPin_iff {device : Device} :
    device.isOutputPin = true ↔ ∃ references, device = .outputPin references := by
  cases device <;> simp [isOutputPin]

end Device

/-! ### The positions of the devices of a sort -/

/-- The positions of the devices that a test accepts, in ascending order. -/
def positions (devices : Array Device) (accepts : Device → Bool) : List Nat :=
  (List.range devices.size).filter fun position => devices[position]?.any accepts

theorem mem_positions {devices : Array Device} {accepts : Device → Bool} {position : Nat} :
    position ∈ positions devices accepts ↔
      ∃ device, devices[position]? = some device ∧ accepts device = true := by
  unfold positions
  rw [List.mem_filter, List.mem_range, Option.any_eq_true]
  constructor
  · rintro ⟨_, device, found, accepted⟩
    exact ⟨device, found, accepted⟩
  · rintro ⟨device, found, accepted⟩
    exact ⟨(Array.getElem?_eq_some_iff.mp found).1, device, found, accepted⟩

theorem length_positions_le (devices : Array Device) (accepts : Device → Bool) :
    (positions devices accepts).length ≤ devices.size :=
  Nat.le_trans (List.length_filter_le _ _) (Nat.le_of_eq List.length_range)

theorem positions_push (devices : Array Device) (accepts : Device → Bool) (device : Device) :
    positions (devices.push device) accepts =
      positions devices accepts ++ if accepts device then [devices.size] else [] := by
  unfold positions
  rw [Array.size_push, List.range_succ, List.filter_append]
  congr 1
  · refine List.filter_congr fun position member => ?_
    rw [Array.getElem?_push, if_neg (Nat.ne_of_lt (List.mem_range.mp member))]
  · cases accepted : accepts device <;> simp [accepted]

theorem positions_push_of_accepts {devices : Array Device} (accepts : Device → Bool)
    {device : Device} (accepted : accepts device = true) :
    positions (devices.push device) accepts = positions devices accepts ++ [devices.size] := by
  rw [positions_push, if_pos accepted]

theorem positions_push_of_refuses {devices : Array Device} (accepts : Device → Bool)
    {device : Device} (refused : accepts device = false) :
    positions (devices.push device) accepts = positions devices accepts := by
  rw [positions_push, refused, if_neg Bool.false_ne_true, List.append_nil]

theorem positions_setIfInBounds {devices : Array Device} {accepts : Device → Bool}
    {position : Nat} {device updated : Device} (found : devices[position]? = some device)
    (same : accepts updated = accepts device) :
    positions (devices.setIfInBounds position updated) accepts = positions devices accepts := by
  unfold positions
  rw [Array.size_setIfInBounds]
  refine List.filter_congr fun other member => ?_
  by_cases equal : other = position
  · subst equal
    rw [Array.getElem?_setIfInBounds_self_of_lt (List.mem_range.mp member), found]
    exact same
  · rw [Array.getElem?_setIfInBounds_ne (Ne.symm equal)]

theorem index_ofIndex_of_mem_positions {devices : Array Device} {accepts : Device → Bool}
    (small : devices.size ≤ UInt32.size) {position : Nat}
    (member : position ∈ positions devices accepts) :
    (DeviceId.ofIndex position).index = position := by
  obtain ⟨_, found, _⟩ := mem_positions.mp member
  obtain ⟨inside, _⟩ := Array.getElem?_eq_some_iff.mp found
  exact DeviceId.index_ofIndex_of_lt (Nat.lt_of_lt_of_le inside small)

/-- An identifier is among those of the positions of a sort when the device that it names is of
that sort. -/
theorem mem_map_positions {devices : Array Device} {accepts : Device → Bool}
    (small : devices.size ≤ UInt32.size) {id : DeviceId} :
    id ∈ (positions devices accepts).map DeviceId.ofIndex ↔
      ∃ device, devices[id.index]? = some device ∧ accepts device = true := by
  rw [List.mem_map, ← mem_positions]
  constructor
  · rintro ⟨position, member, rfl⟩
    rwa [index_ofIndex_of_mem_positions small member]
  · intro member
    exact ⟨id.index, member, DeviceId.ofIndex_index id⟩

theorem pairwise_map_positions {devices : Array Device} {accepts : Device → Bool}
    (small : devices.size ≤ UInt32.size) :
    ((positions devices accepts).map DeviceId.ofIndex).Pairwise (·.index < ·.index) := by
  rw [List.pairwise_map]
  have ascending : (positions devices accepts).Pairwise (· < ·) :=
    List.pairwise_lt_range.filter _
  refine ascending.imp_of_mem fun firstMember secondMember less => ?_
  rwa [index_ofIndex_of_mem_positions small firstMember,
    index_ofIndex_of_mem_positions small secondMember]

theorem nodup_of_pairwise_index {ids : List DeviceId}
    (ascending : ids.Pairwise (·.index < ·.index)) : ids.Nodup := by
  rw [List.nodup_iff_pairwise_ne]
  refine ascending.imp fun less equal => ?_
  rw [equal] at less
  exact Nat.lt_irrefl _ less

/-- Whether an identifier names a device that may drive another one: an input pin or a gate. -/
def MayDrive (devices : Array Device) (id : DeviceId) : Prop :=
  ∃ device, devices[id.index]? = some device ∧ device.isOutputPin = false

theorem getElem?_push_of_some {devices : Array Device} {device pushed : Device} {position : Nat}
    (found : devices[position]? = some device) :
    (devices.push pushed)[position]? = some device := by
  obtain ⟨inside, _⟩ := Array.getElem?_eq_some_iff.mp found
  rw [Array.getElem?_push, if_neg (Nat.ne_of_lt inside), found]

theorem getElem?_setIfInBounds_of_some {devices : Array Device} {device updated : Device}
    {position : Nat} (found : devices[position]? = some device) :
    (devices.setIfInBounds position updated)[position]? = some updated := by
  obtain ⟨inside, _⟩ := Array.getElem?_eq_some_iff.mp found
  exact Array.getElem?_setIfInBounds_self_of_lt inside

/-- Changing the entry of a device leaves the entries of the others alone. -/
theorem getElem?_setIfInBounds_other {Entry : Type} {id other : DeviceId} (different : other ≠ id)
    (table : Array Entry) (entry : Entry) :
    (table.setIfInBounds id.index entry)[other.index]? = table[other.index]? := by
  have apart : id.index ≠ other.index := fun same =>
    different (DeviceId.index_injective same).symm
  exact Array.getElem?_setIfInBounds_ne apart

theorem MayDrive.push {devices : Array Device} {id : DeviceId} (drives : MayDrive devices id)
    (pushed : Device) : MayDrive (devices.push pushed) id := by
  obtain ⟨device, found, notOutput⟩ := drives
  exact ⟨device, getElem?_push_of_some found, notOutput⟩

theorem MayDrive.set {devices : Array Device} {id : DeviceId} (drives : MayDrive devices id)
    {position : Nat} {device updated : Device} (found : devices[position]? = some device)
    (same : updated.SameSort device) : MayDrive (devices.setIfInBounds position updated) id := by
  obtain ⟨source, sourceFound, notOutput⟩ := drives
  by_cases equal : id.index = position
  · subst equal
    obtain rfl : device = source := Option.some.inj (found.symm.trans sourceFound)
    exact ⟨updated, getElem?_setIfInBounds_of_some found, same.2.1.trans notOutput⟩
  · exact ⟨source, (Array.getElem?_setIfInBounds_ne (Ne.symm equal)).trans sourceFound, notOutput⟩

/-! ### Circuits whose lists describe their arena -/

namespace Circuit

/-- The lists of the circuit describe its arena. -/
structure WellFormed (circuit : Circuit) : Prop where
  /-- The input pins are listed in the order of the arena. -/
  inputs_eq : circuit.inputs.toList =
    (positions circuit.devices Device.isInputPin).map DeviceId.ofIndex
  /-- The gates are listed in the order of the arena. -/
  gates_eq : circuit.gates.toList =
    (positions circuit.devices Device.isGate).map DeviceId.ofIndex
  /-- The listed output pins follow the order of the arena. -/
  outputs_sublist : circuit.outputs.toList.Sublist
    ((positions circuit.devices Device.isOutputPin).map DeviceId.ofIndex)
  /-- References name devices that may drive another one. -/
  drives : ∀ (position : Nat) (device : Device), circuit.devices[position]? = some device →
    ∀ reference ∈ device.references, MayDrive circuit.devices reference
  /-- The listed output pins are driven. -/
  driven : ∀ id ∈ circuit.outputs, circuit.references id ≠ []

theorem device_eq_ok_iff {circuit : Circuit} {id : DeviceId} {device : Device} :
    circuit.device id = .ok device ↔ circuit.devices[id.index]? = some device := by
  unfold Circuit.device
  split <;> simp_all

theorem references_of_getElem? {circuit : Circuit} {id : DeviceId} {device : Device}
    (found : circuit.devices[id.index]? = some device) :
    circuit.references id = device.references := by
  unfold Circuit.references
  rw [found]

/-- In a list without repetitions, a position and its entry determine each other. -/
theorem idxOf?_eq_some_iff {ids : Array DeviceId} (distinct : ids.toList.Nodup) {id : DeviceId}
    {position : Nat} : ids.idxOf? id = some position ↔ ids[position]? = some id := by
  obtain ⟨ids⟩ := ids
  rw [List.idxOf?_toArray, List.getElem?_toArray, List.idxOf?_eq_some_iff]
  constructor
  · rintro ⟨inside, found, _⟩
    rw [List.getElem?_eq_getElem inside, found]
  · intro found
    obtain ⟨inside, same⟩ := List.getElem?_eq_some_iff.mp found
    refine ⟨inside, same, fun earlier before repeated => ?_⟩
    exact Nat.ne_of_lt before (distinct.getElem_inj_iff.mp (repeated.trans same.symm))

theorem isGate_iff {circuit : Circuit} {id : DeviceId} :
    circuit.isGate id = true ↔
      ∃ kind references, circuit.devices[id.index]? = some (.gate kind references) := by
  unfold Circuit.isGate
  cases found : circuit.devices[id.index]? with
  | none => simp
  | some device => simp [Device.isGate_iff]

namespace WellFormed

variable {circuit : Circuit} (wellFormed : circuit.WellFormed)
  (small : circuit.devices.size ≤ UInt32.size)

include wellFormed small

theorem mem_inputs {id : DeviceId} :
    id ∈ circuit.inputs ↔ ∃ value, circuit.devices[id.index]? = some (.inputPin value) := by
  rw [← Array.mem_toList_iff, wellFormed.inputs_eq, mem_map_positions small]
  constructor
  · rintro ⟨device, found, accepted⟩
    obtain ⟨value, rfl⟩ := Device.isInputPin_iff.mp accepted
    exact ⟨value, found⟩
  · rintro ⟨value, found⟩
    exact ⟨_, found, rfl⟩

theorem mem_gates {id : DeviceId} :
    id ∈ circuit.gates ↔
      ∃ kind references, circuit.devices[id.index]? = some (.gate kind references) := by
  rw [← Array.mem_toList_iff, wellFormed.gates_eq, mem_map_positions small]
  constructor
  · rintro ⟨device, found, accepted⟩
    obtain ⟨kind, references, rfl⟩ := Device.isGate_iff.mp accepted
    exact ⟨kind, references, found⟩
  · rintro ⟨kind, references, found⟩
    exact ⟨_, found, rfl⟩

theorem mem_gates_iff_isGate {id : DeviceId} :
    id ∈ circuit.gates ↔ circuit.isGate id = true := by
  rw [wellFormed.mem_gates small, isGate_iff]

theorem of_mem_outputs {id : DeviceId} (member : id ∈ circuit.outputs) :
    ∃ first others, circuit.devices[id.index]? = some (.outputPin (first :: others)) := by
  have listed := wellFormed.outputs_sublist.subset (Array.mem_toList_iff.mpr member)
  obtain ⟨device, found, accepted⟩ := (mem_map_positions small).mp listed
  obtain ⟨references, rfl⟩ := Device.isOutputPin_iff.mp accepted
  have driven := wellFormed.driven id member
  rw [references_of_getElem? found] at driven
  cases references with
  | nil => exact absurd rfl driven
  | cons first others => exact ⟨first, others, found⟩

theorem pairwise_inputs : circuit.inputs.toList.Pairwise (·.index < ·.index) := by
  rw [wellFormed.inputs_eq]
  exact pairwise_map_positions small

theorem pairwise_gates : circuit.gates.toList.Pairwise (·.index < ·.index) := by
  rw [wellFormed.gates_eq]
  exact pairwise_map_positions small

theorem pairwise_outputs : circuit.outputs.toList.Pairwise (·.index < ·.index) :=
  (pairwise_map_positions small).sublist wellFormed.outputs_sublist

theorem nodup_inputs : circuit.inputs.toList.Nodup :=
  nodup_of_pairwise_index (wellFormed.pairwise_inputs small)

theorem nodup_gates : circuit.gates.toList.Nodup :=
  nodup_of_pairwise_index (wellFormed.pairwise_gates small)

theorem nodup_outputs : circuit.outputs.toList.Nodup :=
  nodup_of_pairwise_index (wellFormed.pairwise_outputs small)

theorem index_lt_of_mem_gates {gate : DeviceId} (member : gate ∈ circuit.gates) :
    gate.index < circuit.devices.size := by
  obtain ⟨_, _, found⟩ := (wellFormed.mem_gates small).mp member
  exact (Array.getElem?_eq_some_iff.mp found).1

omit small in
theorem inputCount_le : circuit.inputCount ≤ circuit.devices.size := by
  have length := congrArg List.length wellFormed.inputs_eq
  rw [List.length_map, Array.length_toList] at length
  rw [inputCount, length]
  exact length_positions_le _ _

omit small in
theorem gateCount_le : circuit.gateCount ≤ circuit.devices.size := by
  have length := congrArg List.length wellFormed.gates_eq
  rw [List.length_map, Array.length_toList] at length
  rw [gateCount, length]
  exact length_positions_le _ _

theorem inputNumber?_eq_some_iff {id : DeviceId} {number : Nat} :
    circuit.inputNumber? id = some number ↔
      ∃ position, circuit.inputs[position]? = some id ∧ number = position + 1 := by
  rw [inputNumber?, Option.map_eq_some_iff]
  simp only [idxOf?_eq_some_iff (wellFormed.nodup_inputs small), eq_comm]

theorem gateNumber?_eq_some_iff {id : DeviceId} {number : Nat} :
    circuit.gateNumber? id = some number ↔
      ∃ position, circuit.gates[position]? = some id ∧ number = position + 1 := by
  rw [gateNumber?, Option.map_eq_some_iff]
  simp only [idxOf?_eq_some_iff (wellFormed.nodup_gates small), eq_comm]

/-- A referenced device is an input pin or a gate of the circuit. -/
theorem mem_inputs_or_mem_gates {id reference : DeviceId}
    (member : reference ∈ circuit.references id) :
    reference ∈ circuit.inputs ∨ reference ∈ circuit.gates := by
  unfold Circuit.references at member
  cases found : circuit.devices[id.index]? with
  | none => simp [found] at member
  | some device =>
    rw [found] at member
    obtain ⟨source, sourceFound, mayDrive⟩ := wellFormed.drives _ device found reference member
    cases source with
    | inputPin value => exact Or.inl ((wellFormed.mem_inputs small).mpr ⟨value, sourceFound⟩)
    | outputPin references => simp [Device.isOutputPin] at mayDrive
    | gate kind references =>
      exact Or.inr ((wellFormed.mem_gates small).mpr ⟨kind, references, sourceFound⟩)

end WellFormed

/-! ### Changes that keep the description -/

theorem wellFormed_empty : WellFormed empty where
  inputs_eq := rfl
  gates_eq := rfl
  outputs_sublist := List.Sublist.slnil
  drives position device found := by simp [empty] at found
  driven id member := by simp [empty] at member

theorem references_push_of_ne_nil {circuit : Circuit} {id : DeviceId}
    (referring : circuit.references id ≠ []) (pushed : Device) :
    ({ circuit with devices := circuit.devices.push pushed } : Circuit).references id =
      circuit.references id := by
  cases found : circuit.devices[id.index]? with
  | none => exact absurd (by simp [Circuit.references, found]) referring
  | some device =>
    rw [references_of_getElem? found]
    exact references_of_getElem? (getElem?_push_of_some found)

namespace WellFormed

variable {circuit : Circuit} (wellFormed : circuit.WellFormed)

include wellFormed

theorem withOrder (order : Array DeviceId) : WellFormed { circuit with order } :=
  ⟨wellFormed.inputs_eq, wellFormed.gates_eq, wellFormed.outputs_sublist, wellFormed.drives,
    wellFormed.driven⟩

theorem drives_push {pushed : Device}
    (drivable : ∀ reference ∈ pushed.references, MayDrive circuit.devices reference)
    (position : Nat) (device : Device)
    (found : (circuit.devices.push pushed)[position]? = some device)
    (reference : DeviceId) (member : reference ∈ device.references) :
    MayDrive (circuit.devices.push pushed) reference := by
  rw [Array.getElem?_push] at found
  split at found
  · obtain rfl : pushed = device := Option.some.inj found
    exact (drivable reference member).push pushed
  · exact (wellFormed.drives position device found reference member).push pushed

theorem driven_push (pushed : Device) (id : DeviceId) (member : id ∈ circuit.outputs) :
    ({ circuit with devices := circuit.devices.push pushed } : Circuit).references id ≠ [] := by
  have referring := wellFormed.driven id member
  rwa [references_push_of_ne_nil referring pushed]

theorem addInput : WellFormed circuit.addInput.2 where
  inputs_eq := by
    show (circuit.inputs.push circuit.nextId).toList =
      (positions (circuit.devices.push _) Device.isInputPin).map DeviceId.ofIndex
    rw [positions_push_of_accepts Device.isInputPin rfl, List.map_append, Array.toList_push,
      wellFormed.inputs_eq]
    rfl
  gates_eq := by
    show circuit.gates.toList =
      (positions (circuit.devices.push _) Device.isGate).map DeviceId.ofIndex
    rw [positions_push_of_refuses Device.isGate rfl, wellFormed.gates_eq]
  outputs_sublist := by
    show circuit.outputs.toList.Sublist
      ((positions (circuit.devices.push _) Device.isOutputPin).map DeviceId.ofIndex)
    rw [positions_push_of_refuses Device.isOutputPin rfl]
    exact wellFormed.outputs_sublist
  drives := wellFormed.drives_push fun reference member => by cases member
  driven := wellFormed.driven_push _

theorem placeGate (kind : GateKind) {references : List DeviceId}
    (drivable : ∀ reference ∈ references, MayDrive circuit.devices reference) :
    WellFormed (circuit.placeGate kind references).2 where
  inputs_eq := by
    show circuit.inputs.toList =
      (positions (circuit.devices.push _) Device.isInputPin).map DeviceId.ofIndex
    rw [positions_push_of_refuses Device.isInputPin rfl, wellFormed.inputs_eq]
  gates_eq := by
    show (circuit.gates.push circuit.nextId).toList =
      (positions (circuit.devices.push _) Device.isGate).map DeviceId.ofIndex
    rw [positions_push_of_accepts Device.isGate rfl, List.map_append, Array.toList_push,
      wellFormed.gates_eq]
    rfl
  outputs_sublist := by
    show circuit.outputs.toList.Sublist
      ((positions (circuit.devices.push _) Device.isOutputPin).map DeviceId.ofIndex)
    rw [positions_push_of_refuses Device.isOutputPin rfl]
    exact wellFormed.outputs_sublist
  drives := wellFormed.drives_push drivable
  driven := wellFormed.driven_push _

/-- An output pin that was placed but not connected stays unlisted. -/
theorem pushStray :
    WellFormed { circuit with devices := circuit.devices.push (.outputPin []) } where
  inputs_eq := by
    show circuit.inputs.toList = _
    rw [positions_push_of_refuses Device.isInputPin rfl, wellFormed.inputs_eq]
  gates_eq := by
    show circuit.gates.toList = _
    rw [positions_push_of_refuses Device.isGate rfl, wellFormed.gates_eq]
  outputs_sublist := by
    rw [positions_push_of_accepts Device.isOutputPin rfl, List.map_append]
    exact wellFormed.outputs_sublist.trans (List.sublist_append_left _ _)
  drives := wellFormed.drives_push fun reference member => by cases member
  driven := wellFormed.driven_push _

theorem placeOutput (small : circuit.devices.size < UInt32.size) {source : DeviceId}
    (drivable : MayDrive circuit.devices source) :
    WellFormed (circuit.placeOutput source).2 where
  inputs_eq := by
    show circuit.inputs.toList =
      (positions (circuit.devices.push _) Device.isInputPin).map DeviceId.ofIndex
    rw [positions_push_of_refuses Device.isInputPin rfl, wellFormed.inputs_eq]
  gates_eq := by
    show circuit.gates.toList =
      (positions (circuit.devices.push _) Device.isGate).map DeviceId.ofIndex
    rw [positions_push_of_refuses Device.isGate rfl, wellFormed.gates_eq]
  outputs_sublist := by
    show (circuit.outputs.push circuit.nextId).toList.Sublist
      ((positions (circuit.devices.push _) Device.isOutputPin).map DeviceId.ofIndex)
    rw [positions_push_of_accepts Device.isOutputPin rfl, List.map_append, Array.toList_push]
    exact wellFormed.outputs_sublist.append (List.Sublist.refl _)
  drives := wellFormed.drives_push fun reference member => by
    obtain rfl := List.mem_singleton.mp member
    exact drivable
  driven id member := by
    rcases Array.mem_push.mp member with old | rfl
    · exact wellFormed.driven_push _ id old
    · have found : (circuit.placeOutput source).2.devices[circuit.nextId.index]? =
          some (.outputPin [source]) := by
        rw [nextId, DeviceId.index_ofIndex_of_lt small]
        exact Array.getElem?_push_size
      rw [references_of_getElem? found]
      exact List.cons_ne_nil _ _

/-- Replacing a device by another one of its sort keeps the description. -/
theorem set {position : Nat} {device updated : Device}
    (found : circuit.devices[position]? = some device) (same : updated.SameSort device)
    (drivable : ∀ reference ∈ updated.references, MayDrive circuit.devices reference)
    (kept : device.references ≠ [] → updated.references ≠ []) :
    WellFormed { circuit with devices := circuit.devices.setIfInBounds position updated } where
  inputs_eq := by
    rw [positions_setIfInBounds found same.1]
    exact wellFormed.inputs_eq
  gates_eq := by
    rw [positions_setIfInBounds found same.2.2]
    exact wellFormed.gates_eq
  outputs_sublist := by
    rw [positions_setIfInBounds found same.2.1]
    exact wellFormed.outputs_sublist
  drives other otherDevice otherFound reference member := by
    rw [Array.getElem?_setIfInBounds] at otherFound
    split at otherFound
    · split at otherFound
      · obtain rfl : updated = otherDevice := Option.some.inj otherFound
        exact (drivable reference member).set found same
      · cases otherFound
    · exact (wellFormed.drives other otherDevice otherFound reference member).set found same
  driven id member := by
    have referring := wellFormed.driven id member
    by_cases equal : id.index = position
    · subst equal
      rw [references_of_getElem? found] at referring
      rw [references_of_getElem? (getElem?_setIfInBounds_of_some found)]
      exact kept referring
    · unfold Circuit.references at referring ⊢
      rwa [Array.getElem?_setIfInBounds_ne (Ne.symm equal)]

end WellFormed

end Circuit

end Combinational
