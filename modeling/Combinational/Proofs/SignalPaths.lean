/-
This file proves that the depth of a circuit is the number of gates on its longest path.

A path starts at an input pin and goes through gates, each of which may consult the device before
it. A gate is one deeper than the deepest device that it may consult, so no path to a gate has more
gates than the gate is deep. Going back from a gate to the deepest device that it may consult, and
so on, finds a path that has as many. Where every gate has a reference, this ends at an input pin.
-/

import Combinational.Proofs.Construction
import Combinational.Proofs.Counting
import Combinational.Proofs.Depth
import Mathlib.Order.Bounds.Basic

namespace Combinational

theorem isGreatest_foldl_max {numbers : List Nat} (nonempty : numbers ≠ []) :
    IsGreatest {number | number ∈ numbers} (numbers.foldl max 0) := by
  obtain ⟨largest, isLargest⟩ := Option.isSome_iff_exists.mp (List.isSome_max?_iff.mpr nonempty)
  have folded : numbers.foldl max 0 = largest := by
    rw [List.foldl_max, isLargest, Option.getD_some, Nat.zero_max]
  rw [folded]
  exact List.max?_eq_some_iff.mp isLargest

theorem foldl_max_le_iff {numbers : List Nat} {bound : Nat} :
    numbers.foldl max 0 ≤ bound ↔ ∀ number ∈ numbers, number ≤ bound := by
  rcases eq_or_ne numbers [] with rfl | nonempty
  · exact iff_of_true (Nat.zero_le bound) fun _ member => absurd member List.not_mem_nil
  · exact isLUB_le_iff (isGreatest_foldl_max nonempty).isLUB

namespace Device

theorem usedReferences_eq_nil_iff {device : Device} :
    device.usedReferences = [] ↔ device.references = [] := by
  match device with
  | inputPin _ | gate .and _ | gate .or _ => exact Iff.rfl
  | outputPin references | gate .not references =>
    show references.take 1 = [] ↔ references = []
    rw [List.take_eq_nil_iff]
    exact or_iff_right Nat.one_ne_zero

/-- A device with a single reference uses it. -/
theorem usedReferences_of_length_eq_one {device : Device}
    (single : device.references.length = 1) : device.usedReferences = device.references := by
  match device with
  | inputPin _ | gate .and _ | gate .or _ => rfl
  | outputPin _ | gate .not _ => exact List.take_of_length_le single.le

end Device

namespace Circuit

/-! ### Paths -/

/-- Whether the evaluation of a device may consult another one. -/
def Consults (circuit : Circuit) (consumer source : DeviceId) : Prop :=
  ∃ device, circuit.device consumer = .ok device ∧ source ∈ device.usedReferences

/-- A path of the signal from an input pin to a device, given by its gates, the last one first. Each
gate may consult the device before it. -/
inductive IsPathTo (circuit : Circuit) : List DeviceId → DeviceId → Prop
  /-- A path without gates. -/
  | pin {id : DeviceId} (member : id ∈ circuit.inputs) : IsPathTo circuit [] id
  /-- One more gate. -/
  | gate {gates : List DeviceId} {source id : DeviceId} (path : IsPathTo circuit gates source)
    (member : id ∈ circuit.gates) (consults : circuit.Consults id source) :
    IsPathTo circuit (id :: gates) id

/-- The numbers of gates on the paths to a device. -/
def pathLengthsTo (circuit : Circuit) (id : DeviceId) : Set Nat :=
  {length | ∃ gates, circuit.IsPathTo gates id ∧ gates.length = length}

/-- The numbers of gates on the paths to the devices that output pins forward. -/
def pathLengths (circuit : Circuit) : Set Nat :=
  {length | ∃ output ∈ circuit.outputs, ∃ driver,
    circuit.Consults output driver ∧ length ∈ circuit.pathLengthsTo driver}

/-- Whether every gate has a reference. -/
def HasConnectedGates (circuit : Circuit) : Prop :=
  ∀ gate ∈ circuit.gates, circuit.references gate ≠ []

instance (circuit : Circuit) : Decidable circuit.HasConnectedGates :=
  inferInstanceAs (Decidable (∀ gate ∈ circuit.gates, circuit.references gate ≠ []))

theorem consults_iff {circuit : Circuit} {consumer source : DeviceId} {device : Device}
    (found : circuit.devices[consumer.index]? = some device) :
    circuit.Consults consumer source ↔ source ∈ device.usedReferences := by
  unfold Consults
  simp only [device_eq_ok_iff, found, Option.some.injEq, exists_eq_left']

theorem mem_references_of_consults {circuit : Circuit} {consumer source : DeviceId}
    (consults : circuit.Consults consumer source) : source ∈ circuit.references consumer := by
  obtain ⟨device, found, used⟩ := consults
  obtain ⟨count, taken⟩ := device.usedReferences_eq_take
  rw [taken] at used
  rw [references_of_getElem? (device_eq_ok_iff.mp found)]
  exact List.mem_of_mem_take used

/-! ### The depth of a device -/

section Depths

variable {circuit : Circuit} {depths : DeviceId → Nat} (fits : Rule.depth.Fits circuit depths)

include fits

theorem depths_of_mem_inputs {id : DeviceId} (member : id ∈ circuit.inputs) : depths id = 0 := by
  obtain ⟨position, listed⟩ := Array.mem_iff_getElem?.mp member
  exact fits.pin position id listed

variable (wellFormed : circuit.WellFormed) (small : circuit.devices.size ≤ UInt32.size)

include wellFormed small

theorem depths_of_mem_gates {id : DeviceId} (member : id ∈ circuit.gates) :
    ∃ device, circuit.devices[id.index]? = some device ∧
      depths id = (device.usedReferences.map depths).foldl max 0 + 1 := by
  obtain ⟨kind, references, found⟩ := (wellFormed.mem_gates small).mp member
  refine ⟨_, found, ?_⟩
  rw [fits.gate id member kind references found, Rule.map_usedReferences]
  rfl

/-- A gate is deeper than each device that it may consult. -/
theorem depths_lt_of_consults {id source : DeviceId} (member : id ∈ circuit.gates)
    (consults : circuit.Consults id source) : depths source < depths id := by
  obtain ⟨device, found, deeper⟩ := depths_of_mem_gates fits wellFormed small member
  have used := (consults_iff found).mp consults
  have entered : depths source ∈ device.usedReferences.map depths := List.mem_map_of_mem used
  have bounded := (isGreatest_foldl_max (List.ne_nil_of_mem entered)).2 entered
  rw [deeper]
  exact Nat.lt_succ_of_le bounded

theorem length_le_of_isPathTo {gates : List DeviceId} {id : DeviceId}
    (path : circuit.IsPathTo gates id) : gates.length ≤ depths id := by
  induction path with
  | pin member => exact Nat.zero_le _
  | gate _ member consults inductionHypothesis =>
    exact inductionHypothesis.trans_lt (depths_lt_of_consults fits wellFormed small member consults)

variable (connected : circuit.HasConnectedGates)

include connected

/-- A gate is one deeper than some device that it may consult. -/
theorem exists_deepest {id : DeviceId} (member : id ∈ circuit.gates) :
    ∃ source, circuit.Consults id source ∧ depths id = depths source + 1 := by
  obtain ⟨device, found, deeper⟩ := depths_of_mem_gates fits wellFormed small member
  have used : device.usedReferences ≠ [] := by
    have referring := connected id member
    rw [references_of_getElem? found] at referring
    exact Device.usedReferences_eq_nil_iff.not.mpr referring
  obtain ⟨attained, _⟩ :=
    isGreatest_foldl_max (List.map_eq_nil_iff.not.mpr used : device.usedReferences.map depths ≠ [])
  obtain ⟨source, consulted, deepest⟩ := List.mem_map.mp attained
  exact ⟨source, (consults_iff found).mpr consulted, by rw [deeper, deepest]⟩

/-- The longest path to a device is found by going back from gate to deepest source. -/
theorem exists_isPathTo {id : DeviceId} (listed : id ∈ circuit.inputs ∨ id ∈ circuit.gates) :
    ∃ gates, circuit.IsPathTo gates id ∧ gates.length = depths id := by
  -- Each step back decreases the depth.
  induction depth : depths id using Nat.strong_induction_on generalizing id with
  | _ depth inductionHypothesis =>
    rcases listed with pin | gate
    · rw [← depth, depths_of_mem_inputs fits pin]
      exact ⟨[], .pin pin, rfl⟩
    · obtain ⟨source, consults, deeper⟩ := exists_deepest fits wellFormed small connected gate
      have sourceListed :=
        wellFormed.mem_inputs_or_mem_gates small (mem_references_of_consults consults)
      obtain ⟨gates, path, length⟩ :=
        inductionHypothesis (depths source) (by omega) sourceListed rfl
      refine ⟨id :: gates, .gate path gate consults, ?_⟩
      rw [List.length_cons, length, ← depth, deeper]

/-- The depth of a device is the number of gates on the longest path to it. -/
theorem isGreatest_pathLengthsTo {id : DeviceId}
    (listed : id ∈ circuit.inputs ∨ id ∈ circuit.gates) :
    IsGreatest (circuit.pathLengthsTo id) (depths id) := by
  refine ⟨exists_isPathTo fits wellFormed small connected listed, ?_⟩
  rintro _ ⟨gates, path, rfl⟩
  exact length_le_of_isPathTo fits wellFormed small path

end Depths

/-! ### The depth of a circuit -/

/-- The statistics of a sorted circuit that lists all its devices give the depth of the deepest
device that an output pin references. -/
theorem exists_statistics_depth {circuit : Circuit} (constructed : circuit.IsConstructed)
    (small : circuit.devices.size < UInt32.size) (sorted : circuit.isSorted = true)
    {depths : DeviceId → Nat} (fits : Rule.depth.Fits circuit depths) :
    ∃ statistics, circuit.statistics = .ok statistics ∧ statistics.depth =
      ((circuit.outputs.toList.flatMap circuit.references).map depths).foldl max 0 := by
  have wellFormed := constructed.reachable.wellFormed small
  have ordered := (constructed.reachable.hasCurrentOrder small).isEvaluationOrder sorted
  have measured := depth_eq_ok fits wellFormed small.le ordered sorted
    (constructed.size_devices small).le
  exact ⟨_, statistics_eq_ok wellFormed small.le measured, rfl⟩

theorem exists_fits_depth {circuit : Circuit} (constructed : circuit.IsConstructed)
    (small : circuit.devices.size < UInt32.size) (sorted : circuit.isSorted = true) :
    ∃ depths, Rule.depth.Fits circuit depths :=
  Rule.exists_fits Rule.depth (constructed.reachable.wellFormed small) small.le
    ((constructed.reachable.hasCurrentOrder small).isEvaluationOrder sorted)

/-- A device with a single reference consults just that. -/
theorem consults_iff_mem_references {circuit : Circuit} {consumer source : DeviceId}
    (single : (circuit.references consumer).length = 1) :
    circuit.Consults consumer source ↔ source ∈ circuit.references consumer := by
  cases found : circuit.devices[consumer.index]? with
  | none => simp [Circuit.references, found] at single
  | some device =>
    rw [references_of_getElem? found] at single ⊢
    rw [consults_iff found, Device.usedReferences_of_length_eq_one single]

/-- The devices that output pins with a single reference forward. -/
theorem mem_drivers_iff {circuit : Circuit}
    (single : ∀ output ∈ circuit.outputs, (circuit.references output).length = 1)
    (driver : DeviceId) :
    driver ∈ circuit.outputs.toList.flatMap circuit.references ↔
      ∃ output ∈ circuit.outputs, circuit.Consults output driver := by
  simp only [List.mem_flatMap, Array.mem_toList_iff]
  exact exists_congr fun output => and_congr_right fun member =>
    (consults_iff_mem_references (single output member)).symm

/-- The deepest driver of an output pin is at the end of the longest path. -/
theorem isGreatest_pathLengths {circuit : Circuit} {drivers : List DeviceId}
    (nonempty : drivers ≠ []) (mem_drivers : ∀ driver, driver ∈ drivers ↔
      ∃ output ∈ circuit.outputs, circuit.Consults output driver)
    {depths : DeviceId → Nat}
    (longest : ∀ driver ∈ drivers, IsGreatest (circuit.pathLengthsTo driver) (depths driver)) :
    IsGreatest circuit.pathLengths ((drivers.map depths).foldl max 0) := by
  obtain ⟨attained, bounds⟩ :=
    isGreatest_foldl_max (List.map_eq_nil_iff.not.mpr nonempty : drivers.map depths ≠ [])
  constructor
  · obtain ⟨driver, member, deepest⟩ := List.mem_map.mp attained
    obtain ⟨output, listed, consults⟩ := (mem_drivers driver).mp member
    exact ⟨output, listed, driver, consults, deepest ▸ (longest driver member).1⟩
  · rintro length ⟨output, listed, driver, consults, lengthTo⟩
    have member := (mem_drivers driver).mpr ⟨output, listed, consults⟩
    exact ((longest driver member).2 lengthTo).trans (bounds (List.mem_map_of_mem member))

end Circuit

end Combinational
