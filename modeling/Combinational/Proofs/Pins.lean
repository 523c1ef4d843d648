/-
This file describes assignments of the input pins in closed form.

A circuit with other pin values has the same arena but for its input pins. Assigning one pin
updates the function of the pin values at that pin, and assigning all of them in order replaces it.
-/

import Combinational.Proofs.History
import Mathlib.Logic.Function.Basic

namespace Combinational

namespace Device

/-- The device with another value, if it is an input pin. -/
def withPin (value : Bool) : Device → Device
  | inputPin _ => inputPin value
  | outputPin references => outputPin references
  | gate kind references => gate kind references

end Device

namespace Circuit

/-- The circuit with other values of its input pins. -/
def withPins (circuit : Circuit) (value : DeviceId → Bool) : Circuit :=
  { circuit with
    devices := circuit.devices.mapIdx fun position device =>
      device.withPin (value (.ofIndex position)) }

theorem getElem?_withPins (circuit : Circuit) (value : DeviceId → Bool) (position : Nat) :
    (circuit.withPins value).devices[position]? =
      circuit.devices[position]?.map (Device.withPin (value (.ofIndex position))) := by
  unfold withPins
  rw [Array.getElem?_mapIdx]

theorem getElem?_withPins_of_input {circuit : Circuit} {id : DeviceId} {held : Bool}
    (found : circuit.devices[id.index]? = some (.inputPin held)) (value : DeviceId → Bool) :
    (circuit.withPins value).devices[id.index]? = some (.inputPin (value id)) := by
  rw [getElem?_withPins, found, DeviceId.ofIndex_index]
  rfl

theorem size_withPins (circuit : Circuit) (value : DeviceId → Bool) :
    (circuit.withPins value).devices.size = circuit.devices.size := by
  unfold withPins
  rw [Array.size_mapIdx]

theorem heldValue_of_getElem? {circuit : Circuit} {id : DeviceId} {held : Bool}
    (found : circuit.devices[id.index]? = some (.inputPin held)) :
    circuit.heldValue id = held := by
  unfold heldValue
  rw [found]

theorem withPins_withPins (circuit : Circuit) (first second : DeviceId → Bool) :
    (circuit.withPins first).withPins second = circuit.withPins second := by
  have devices : ((circuit.withPins first).withPins second).devices =
      (circuit.withPins second).devices := by
    refine Array.ext_getElem? fun position => ?_
    rw [getElem?_withPins, getElem?_withPins, getElem?_withPins, Option.map_map]
    congr 1
    funext device
    cases device <;> rfl
  show { circuit with devices := ((circuit.withPins first).withPins second).devices } = _
  rw [devices]
  rfl

/-- A circuit is determined by its pin values and what they leave alone. -/
theorem withPins_heldValue {circuit : Circuit} (small : circuit.devices.size ≤ UInt32.size) :
    circuit.withPins circuit.heldValue = circuit := by
  have devices : (circuit.withPins circuit.heldValue).devices = circuit.devices := by
    refine Array.ext_getElem? fun position => ?_
    rw [getElem?_withPins]
    cases found : circuit.devices[position]? with
    | none => rfl
    | some device =>
      obtain ⟨inside, _⟩ := Array.getElem?_eq_some_iff.mp found
      have roundTrip := DeviceId.index_ofIndex_of_lt (Nat.lt_of_lt_of_le inside small)
      cases device with
      | inputPin held =>
        have here : circuit.devices[(DeviceId.ofIndex position).index]? =
            some (.inputPin held) := by
          rw [roundTrip, found]
        rw [heldValue_of_getElem? here]
        rfl
      | outputPin references | gate kind references => rfl
  show { circuit with devices := (circuit.withPins circuit.heldValue).devices } = circuit
  rw [devices]

theorem withPins_update {circuit : Circuit} (small : circuit.devices.size ≤ UInt32.size)
    {id : DeviceId} {held : Bool} (found : circuit.devices[id.index]? = some (.inputPin held))
    (current : DeviceId → Bool) (value : Bool) :
    { circuit.withPins current with
      devices := (circuit.withPins current).devices.setIfInBounds id.index (.inputPin value) } =
      circuit.withPins (Function.update current id value) := by
  have devices : (circuit.withPins current).devices.setIfInBounds id.index (.inputPin value) =
      (circuit.withPins (Function.update current id value)).devices := by
    refine Array.ext_getElem? fun position => ?_
    rw [getElem?_withPins]
    by_cases equal : id.index = position
    · subst equal
      have here := getElem?_withPins_of_input found current
      rw [getElem?_setIfInBounds_of_some here, found, DeviceId.ofIndex_index,
        Function.update_self]
      rfl
    · rw [Array.getElem?_setIfInBounds_ne equal, getElem?_withPins]
      cases other : circuit.devices[position]? with
      | none => rfl
      | some device =>
        obtain ⟨inside, _⟩ := Array.getElem?_eq_some_iff.mp other
        have roundTrip := DeviceId.index_ofIndex_of_lt (Nat.lt_of_lt_of_le inside small)
        have different : DeviceId.ofIndex position ≠ id := fun same =>
          equal (by rw [← same, roundTrip])
        rw [Function.update_of_ne different]
  rw [devices]
  rfl

/-! ### Assigning pins -/

/-- The pin values after some pins have received values, in order. -/
def assign : List DeviceId → List Bool → (DeviceId → Bool) → DeviceId → Bool
  | id :: ids, value :: values, current => assign ids values (Function.update current id value)
  | _, _, current => current

theorem assign_of_not_mem {ids : List DeviceId} {id : DeviceId} (absent : id ∉ ids)
    (values : List Bool) (current : DeviceId → Bool) :
    assign ids values current id = current id := by
  induction ids generalizing values current with
  | nil => rfl
  | cons first ids inductionHypothesis =>
    obtain ⟨different, absentLater⟩ := List.ne_and_not_mem_of_not_mem_cons absent
    cases values with
    | nil => rfl
    | cons value values =>
      rw [assign, inductionHypothesis absentLater, Function.update_of_ne different]

theorem assign_of_getElem? {ids : List DeviceId} {values : List Bool} {position : Nat}
    {id : DeviceId} {value : Bool} (distinct : ids.Nodup) (listed : ids[position]? = some id)
    (given : values[position]? = some value) (current : DeviceId → Bool) :
    assign ids values current id = value := by
  induction ids generalizing values position current with
  | nil => simp at listed
  | cons first ids inductionHypothesis =>
    obtain ⟨absent, distinctLater⟩ := List.nodup_cons.mp distinct
    cases values with
    | nil => simp at given
    | cons firstValue values =>
      cases position with
      | zero =>
        obtain rfl : first = id := by simpa using listed
        obtain rfl : firstValue = value := by simpa using given
        rw [assign, assign_of_not_mem absent, Function.update_self]
      | succ position => exact inductionHypothesis distinctLater listed given _

variable {circuit : Circuit} (wellFormed : circuit.WellFormed)
  (small : circuit.devices.size ≤ UInt32.size)

include wellFormed small

theorem setInput_withPins {position : Nat} {id : DeviceId}
    (listed : circuit.inputs[position]? = some id) (current : DeviceId → Bool) (value : Bool) :
    (circuit.withPins current).setInput (position + 1) value =
      .ok (circuit.withPins (Function.update current id value)) := by
  obtain ⟨held, found⟩ := (wellFormed.mem_inputs small).mp (Array.mem_of_getElem? listed)
  have here := getElem?_withPins_of_input found current
  have listedHere : (circuit.withPins current).inputs[position]? = some id := listed
  unfold setInput
  simp only [listedHere]
  refine bind_eq_ok_iff.mpr ⟨_, device_eq_ok_iff.mpr here, bind_eq_ok_iff.mpr ⟨_, rfl, ?_⟩⟩
  exact congrArg Except.ok (withPins_update small found current value)

/-- One value per input pin can always be assigned, whatever the pins hold. -/
theorem setInputs_withPins {values : List Bool} (length : values.length = circuit.inputCount)
    (current : DeviceId → Bool) : (circuit.withPins current).setInputs values =
      .ok (circuit.withPins (assign circuit.inputs.toList values current)) := by
  have folded : ∀ (values : List Bool) (done rest : List DeviceId) (current : DeviceId → Bool),
      circuit.inputs.toList = done ++ rest → rest.length = values.length →
      (values.zipIdx (done.length + 1)).foldlM
        (fun assigned numbered => assigned.setInput numbered.2 numbered.1)
        (circuit.withPins current) = .ok (circuit.withPins (assign rest values current)) := by
    intro values
    induction values with
    | nil =>
      intro done rest current _ lengths
      rw [List.eq_nil_of_length_eq_zero lengths]
      rfl
    | cons value values inductionHypothesis =>
      intro done rest current split lengths
      cases rest with
      | nil => cases lengths
      | cons id rest =>
        have listed : circuit.inputs[done.length]? = some id := by
          rw [← Array.getElem?_toList, split, List.getElem?_append_right (Nat.le_refl _),
            Nat.sub_self]
          rfl
        rw [List.zipIdx_cons, List.foldlM_cons]
        refine bind_eq_ok_iff.mpr ⟨_, setInput_withPins wellFormed small listed current value, ?_⟩
        have further := inductionHypothesis (done ++ [id]) rest (Function.update current id value)
          (by rw [split, List.append_assoc]; rfl) (Nat.succ.inj lengths)
        rwa [List.length_append] at further
  have whole := folded values [] circuit.inputs.toList current rfl (by rw [length]; rfl)
  have accepted : values.length = (circuit.withPins current).inputCount := length
  unfold setInputs
  rw [if_pos accepted]
  exact whole

theorem setInputs_eq_ok {values : List Bool} (length : values.length = circuit.inputCount) :
    circuit.setInputs values =
      .ok (circuit.withPins (assign circuit.inputs.toList values circuit.heldValue)) := by
  have assigns := setInputs_withPins wellFormed small length circuit.heldValue
  rwa [withPins_heldValue small] at assigns

/-- Only the values of the listed pins matter. -/
theorem withPins_congr {first second : DeviceId → Bool}
    (agree : ∀ id ∈ circuit.inputs, first id = second id) :
    circuit.withPins first = circuit.withPins second := by
  have devices : (circuit.withPins first).devices = (circuit.withPins second).devices := by
    refine Array.ext_getElem? fun position => ?_
    rw [getElem?_withPins, getElem?_withPins]
    cases found : circuit.devices[position]? with
    | none => rfl
    | some device =>
      cases device with
      | outputPin references | gate kind references => rfl
      | inputPin held =>
        obtain ⟨inside, _⟩ := Array.getElem?_eq_some_iff.mp found
        have roundTrip := DeviceId.index_ofIndex_of_lt (Nat.lt_of_lt_of_le inside small)
        have member : DeviceId.ofIndex position ∈ circuit.inputs := by
          refine (wellFormed.mem_inputs small).mpr ⟨held, ?_⟩
          rw [roundTrip, found]
        rw [agree _ member]
  show { circuit with devices := (circuit.withPins first).devices } = _
  rw [devices]
  rfl

theorem heldValue_withPins {id : DeviceId} (member : id ∈ circuit.inputs)
    (value : DeviceId → Bool) : (circuit.withPins value).heldValue id = value id := by
  obtain ⟨held, found⟩ := (wellFormed.mem_inputs small).mp member
  exact heldValue_of_getElem? (getElem?_withPins_of_input found value)

end Circuit

end Combinational
