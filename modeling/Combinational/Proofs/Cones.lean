/-
This file proves that an output depends only on the input pins in its cone.

The cone of a device holds the devices that its evaluation may consult, directly or through others.
All devices are evaluated in one pass over one table, but each value is computed from those that the
device may consult. So, going along the pass, two assignments that agree on the input pins in the
cone of a device give the device one value.

References that evaluation ignores matter to the order of the pass, but they are no part of a cone.
The function of an output therefore does not change when a pin outside the cone is flipped.
-/

import Combinational.Proofs.IgnoredReferences
import Combinational.Proofs.Readiness

namespace Combinational

open Relation

/-- Only the references that are used matter. -/
theorem Device.output_congr_of_used {first second : DeviceId → Bool} {device : Device}
    (agree : ∀ reference ∈ device.usedReferences, first reference = second reference) :
    device.output first = device.output second := by
  rw [← references_pruned] at agree
  rw [← output_pruned, output_congr agree, output_pruned]

/-! ### Flipped bits -/

namespace Pattern

/-- Flipping a bit of a number changes the value of one pin only. -/
theorem getElem?_littleEndian_flip {width bit position : Nat} (mask : Nat)
    (other : position ≠ bit) :
    (littleEndian width (mask ^^^ 2 ^ bit))[position]? = (littleEndian width mask)[position]? := by
  have kept : (mask ^^^ 2 ^ bit).testBit position = mask.testBit position := by
    rw [Nat.testBit_xor, Nat.testBit_two_pow_of_ne other.symm, Bool.xor_false]
  simp only [littleEndian, List.getElem?_map]
  by_cases inside : position < width
  · rw [List.getElem?_range inside, Option.map_some, Option.map_some, kept]
  · rw [List.getElem?_eq_none (by simpa using inside)]
    rfl

theorem flip_lt {width bit mask : Nat} (inside : bit < width) (below : mask < count width) :
    mask ^^^ 2 ^ bit < count width :=
  Nat.xor_lt_two_pow below (Nat.pow_lt_pow_right Nat.one_lt_two inside)

end Pattern

namespace Circuit

/-! ### Cones -/

/-- Whether the evaluation of a device may consult another one, directly or through others. -/
def InCone (circuit : Circuit) (id source : DeviceId) : Prop :=
  ReflTransGen circuit.Consults id source

/-- Devices that include all those which they may consult include the cone of each one. -/
theorem mem_of_inCone {circuit : Circuit} {devices : List DeviceId}
    (closed : ∀ id ∈ devices, ∀ source, circuit.Consults id source → source ∈ devices)
    {id source : DeviceId} (member : id ∈ devices) (within : circuit.InCone id source) :
    source ∈ devices := by
  induction within with
  | refl => exact member
  | tail _ consults inductionHypothesis => exact closed _ inductionHypothesis _ consults

/-- Whether two assignments agree on the input pins in the cone of a device. -/
def AgreeOnCone (circuit : Circuit) (id : DeviceId) (first second : List Bool) : Prop :=
  ∀ (position : Nat) (pin : DeviceId), circuit.inputs[position]? = some pin →
    circuit.InCone id pin → first[position]? = second[position]?

theorem AgreeOnCone.of_consults {circuit : Circuit} {id source : DeviceId}
    {first second : List Bool} (agree : circuit.AgreeOnCone id first second)
    (consults : circuit.Consults id source) : circuit.AgreeOnCone source first second :=
  fun position pin listed within => agree position pin listed (.head consults within)

section Solutions

variable {circuit : Circuit} (wellFormed : circuit.WellFormed)
  (small : circuit.devices.size ≤ UInt32.size) (nots : circuit.HasConnectedNots)

include wellFormed small nots

/-- A solution gives each device but the input pins its value. -/
theorem Solves.eq_output {values : List Bool} {valuation : DeviceId → Bool}
    (solves : circuit.Solves values valuation) {id : DeviceId} {device : Device}
    (listed : circuit.IsListed id) (found : circuit.devices[id.index]? = some device)
    (notInput : device.isInputPin = false) : valuation id = device.output valuation := by
  obtain ⟨same, sameFound, value⟩ :=
    settles_of_solves wellFormed small solves.input nots solves listed
  rw [getElem?_withPins_of_not_input found notInput] at sameFound
  rwa [← Option.some.inj sameFound] at value

/-- Two solutions agree on a device if the assignments agree on its cone. -/
theorem eq_of_agreeOnCone (ordered : circuit.IsEvaluationOrder circuit.order.toList)
    {first second : List Bool} {firstValuation secondValuation : DeviceId → Bool}
    (firstSolves : circuit.Solves first firstValuation)
    (secondSolves : circuit.Solves second secondValuation) {id : DeviceId}
    (listed : circuit.IsListed id) (agree : circuit.AgreeOnCone id first second) :
    firstValuation id = secondValuation id := by
  -- The invariant of the pass leaves the assignments to the cone of the device at hand.
  let isolated (id : DeviceId) : Prop :=
    circuit.AgreeOnCone id first second → firstValuation id = secondValuation id
  refine forall_of_follows isolated (follows_schedule wellFormed small ordered)
    (fun _ member => absurd member List.not_mem_nil) (fun id scheduled sources agree => ?_) id
    ((mem_schedule_iff ordered).mpr listed) agree
  have listed := (mem_schedule_iff ordered).mp scheduled
  obtain ⟨device, found, _⟩ := exists_connected wellFormed small nots listed
  cases pin : device.isInputPin with
  | true =>
    have member : id ∈ circuit.inputs := by
      cases device with
      | inputPin held => exact (wellFormed.mem_inputs small).mpr ⟨held, found⟩
      | outputPin _ | gate _ _ => cases pin
    obtain ⟨position, atPosition⟩ := Array.mem_iff_getElem?.mp member
    have same := agree position id atPosition .refl
    rw [firstSolves.input position id atPosition, secondSolves.input position id atPosition] at same
    exact Option.some.inj same
  | false =>
    rw [firstSolves.eq_output wellFormed small nots listed found pin,
      secondSolves.eq_output wellFormed small nots listed found pin]
    refine Device.output_congr_of_used fun source used => ?_
    have consults := (consults_iff found).mpr used
    exact sources source (mem_references_of_consults consults) (agree.of_consults consults)

end Solutions

/-- An output responds alike to assignments that agree on its cone. -/
theorem getElem?_response_eq {circuit : Circuit} (reachable : circuit.Reachable)
    (small : circuit.devices.size < UInt32.size) (sorted : circuit.isSorted = true)
    (nots : circuit.HasConnectedNots) {first second : List Bool}
    (firstLength : first.length = circuit.inputCount)
    (secondLength : second.length = circuit.inputCount) {position : Nat} {output : DeviceId}
    (listed : circuit.outputs[position]? = some output)
    (agree : circuit.AgreeOnCone output first second) :
    ∃ value, (circuit.response first)[position]? = some value ∧
      (circuit.response second)[position]? = some value := by
  have ordered := (reachable.hasCurrentOrder small).isEvaluationOrder sorted
  obtain ⟨_, firstValuation, firstSolves, firstOutputs⟩ :=
    exists_solves_response reachable small sorted nots firstLength
  obtain ⟨_, secondValuation, secondSolves, secondOutputs⟩ :=
    exists_solves_response reachable small sorted nots secondLength
  have same := eq_of_agreeOnCone (reachable.wellFormed small) small.le nots ordered firstSolves
    secondSolves (Or.inr (Or.inr (Array.mem_of_getElem? listed))) agree
  refine ⟨firstValuation output, ?_, ?_⟩
  · rw [firstOutputs, List.getElem?_map, Array.getElem?_toList, listed, Option.map_some]
  · rw [secondOutputs, List.getElem?_map, Array.getElem?_toList, listed, Option.map_some, same]

/-- The value of an output for a number does not depend on a bit whose pin is outside the cone of
the output. -/
theorem outputBit_flip {circuit : Circuit} (reachable : circuit.Reachable)
    (small : circuit.devices.size < UInt32.size) (sorted : circuit.isSorted = true)
    (nots : circuit.HasConnectedNots) {position bit : Nat} {output pin : DeviceId}
    (listed : circuit.outputs[position]? = some output)
    (pinListed : circuit.inputs[bit]? = some pin) (outside : ¬ circuit.InCone output pin)
    (mask : Nat) :
    circuit.outputBit position (mask ^^^ 2 ^ bit) = circuit.outputBit position mask := by
  have agree : circuit.AgreeOnCone output
      (Pattern.littleEndian circuit.inputCount (mask ^^^ 2 ^ bit))
      (Pattern.littleEndian circuit.inputCount mask) := by
    intro other consulted otherListed within
    refine Pattern.getElem?_littleEndian_flip mask ?_
    rintro rfl
    exact outside (Option.some.inj (otherListed.symm.trans pinListed) ▸ within)
  obtain ⟨value, flipped, kept⟩ := getElem?_response_eq reachable small sorted nots
    (Pattern.length_littleEndian ..) (Pattern.length_littleEndian ..) listed agree
  unfold outputBit
  rw [flipped, kept]

/-! ### Main statement -/

/-- The output pin at a position has a value once the input pins have received some values. -/
def Yields (circuit : Circuit) (values : List Bool) (position : Nat) (value : Bool) : Prop :=
  ∃ assigned outputs, circuit.setInputs values = .ok assigned ∧
    assigned.outputValues = .ok outputs ∧ outputs[position]? = some value

theorem IsReady.yields {circuit : Circuit} (ready : circuit.IsReady) {values : List Bool}
    (length : values.length = circuit.inputCount) {position : Nat} {value : Bool}
    (responds : (circuit.response values)[position]? = some value) :
    circuit.Yields values position value :=
  ⟨_, _, ready.setInputs_eq length, ready.responds values length, responds⟩

/-- Each output of a loaded circuit has one value for any two assignments that agree on the input
pins in its cone. Its function, as a lookup table and as a table of any lawful kind, does not change
if the bit of a pin outside the cone is flipped. -/
theorem cone_spec {text : String} {circuit : Circuit} (loads : (Lcf.load text).1 = .ok circuit)
    {Table : Type} {tables : BitTables circuit.inputCount Table} (lawful : tables.IsLawful) :
    (∀ (position : Nat) (output : DeviceId), circuit.outputs[position]? = some output →
      ∀ first second : List Bool, first.length = circuit.inputCount →
        second.length = circuit.inputCount → circuit.AgreeOnCone output first second →
          ∃ value, circuit.Yields first position value ∧ circuit.Yields second position value) ∧
    ∃ functions filled, circuit.outputFunctions = (.ok functions, circuit) ∧
      circuit.fillFunctions tables = (.ok filled, circuit) ∧
      ∀ (position : Nat) (output : DeviceId), circuit.outputs[position]? = some output →
        ∃ function bits, functions[position]? = some function ∧ filled[position]? = some bits ∧
          ∀ (bit : Nat) (pin : DeviceId), circuit.inputs[bit]? = some pin →
            ¬ circuit.InCone output pin → ∀ mask < Pattern.count circuit.inputCount,
              mask ^^^ 2 ^ bit < Pattern.count circuit.inputCount ∧
              function.value (mask ^^^ 2 ^ bit) = function.value mask ∧
              tables.value bits (mask ^^^ 2 ^ bit) = tables.value bits mask := by
  obtain ⟨ready, _⟩ := isReady_of_load loads
  have ⟨reachable, small, sorted, nots, _, _⟩ := ready
  refine ⟨fun position output listed first second firstLength secondLength agree => ?_,
    _, _, outputFunctions_eq reachable small sorted nots,
    fillFunctions_eq reachable small sorted nots tables, fun position output listed => ?_⟩
  · obtain ⟨value, firstValue, secondValue⟩ := getElem?_response_eq reachable small sorted nots
      firstLength secondLength listed agree
    exact ⟨value, ready.yields firstLength firstValue, ready.yields secondLength secondValue⟩
  · have inside : position < circuit.outputCount := (Array.getElem?_eq_some_iff.mp listed).1
    refine ⟨_, _, by rw [List.getElem?_map, List.getElem?_range inside]; rfl,
      by rw [List.getElem?_map, List.getElem?_range inside]; rfl,
      fun bit pin pinListed outside mask below => ?_⟩
    have pinInside : bit < circuit.inputCount := (Array.getElem?_eq_some_iff.mp pinListed).1
    have flippedBelow := Pattern.flip_lt pinInside below
    have same := outputBit_flip reachable small sorted nots listed pinListed outside mask
    refine ⟨flippedBelow, ?_, ?_⟩
    · rw [LookupTable.value_ofValues (by simpa using flippedBelow),
        LookupTable.value_ofValues (by simpa using below)]
      simpa using same
    · rw [BitTables.value_foldl_set lawful _ le_rfl flippedBelow,
        BitTables.value_foldl_set lawful _ le_rfl below, if_pos flippedBelow, if_pos below, same]

/-- An output does not depend on a pin to which references lead, one of which a Not gate ignores. -/
theorem function_value_ignored_pin :
    let text := "2\n2\n3 -1 2.1 0\n1 -2 0\n"
    let output := DeviceId.ofIndex 4
    let pin := DeviceId.ofIndex 1
    ∃ circuit, (Lcf.load text).1 = .ok circuit ∧
      circuit.outputs[0]? = some output ∧ circuit.inputs[1]? = some pin ∧
      ReflTransGen (fun consumer source => source ∈ circuit.references consumer) output pin ∧
      ¬ circuit.InCone output pin ∧ circuit.AgreeOnCone output [true, false] [true, true] ∧
      (BitTables.vectors circuit.inputCount).IsLawful ∧
      (∃ value, circuit.Yields [true, false] 0 value ∧ circuit.Yields [true, true] 0 value) ∧
      ∃ functions function, circuit.outputFunctions = (.ok functions, circuit) ∧
        functions[0]? = some function ∧ function.value 3 = function.value 1 := by
  intro text output pin
  let description : Lcf.Description := { inputs := 2, gates := 2, statements := [
    ⟨.not, [.input 1, .gate 2]⟩, ⟨.and, [.input 2]⟩] }
  let circuit : Circuit := {
    devices := #[.inputPin false, .inputPin false, .gate .not [.ofIndex 0, .ofIndex 3],
      .gate .and [.ofIndex 1], .outputPin [.ofIndex 2]]
    inputs := #[.ofIndex 0, .ofIndex 1]
    gates := #[.ofIndex 2, .ofIndex 3]
    outputs := #[.ofIndex 4]
    order := #[.ofIndex 3, .ofIndex 2] }
  have characters : text.toList = ['2', '\n', '2', '\n', '3', ' ', '-', '1', ' ', '2', '.', '1',
      ' ', '0', '\n', '1', ' ', '-', '2', ' ', '0', '\n'] := by
    simp [text]
  have reads : Lcf.read? text = some description := by
    unfold Lcf.read?
    rw [characters]
    decide
  have declared : ∀ statement ∈ description.statements, ∀ source ∈ statement.sources,
      description.Declares source := by
    show ∀ statement ∈ description.statements, ∀ source ∈ statement.sources,
      source.isDefined 2 2 = true
    decide
  have loads : (Lcf.load text).1 = .ok circuit := Lcf.load_eq_ok_iff.mpr
    ⟨description, reads, ⟨by decide, by decide, rfl⟩, declared, by decide⟩
  have listed : circuit.outputs[0]? = some output := rfl
  have pinListed : circuit.inputs[1]? = some pin := rfl
  have refers : ReflTransGen (fun consumer source => source ∈ circuit.references consumer)
      output pin :=
    .head (b := .ofIndex 2) (by decide) (.head (b := .ofIndex 3) (by decide) (.single (by decide)))
  have closed : ∀ id ∈ [output, .ofIndex 2, .ofIndex 0], ∀ source, circuit.Consults id source →
      source ∈ [output, .ofIndex 2, .ofIndex 0] := by
    rintro id member source ⟨device, found, used⟩
    simp only [List.mem_cons, List.not_mem_nil, or_false] at member
    rcases member with rfl | rfl | rfl
    · obtain rfl : .outputPin [.ofIndex 2] = device := Except.ok.inj found
      obtain rfl := List.mem_singleton.mp used
      decide
    · obtain rfl : .gate .not [.ofIndex 0, .ofIndex 3] = device := Except.ok.inj found
      obtain rfl := List.mem_singleton.mp used
      decide
    · obtain rfl : .inputPin false = device := Except.ok.inj found
      cases used
  have outside : ¬ circuit.InCone output pin := fun within =>
    absurd (mem_of_inCone closed List.mem_cons_self within) (by decide)
  have agree : circuit.AgreeOnCone output [true, false] [true, true] := by
    intro position consulted consultedListed within
    match position with
    | 0 => rfl
    | 1 => exact absurd (Option.some.inj (consultedListed.symm.trans pinListed) ▸ within) outside
    | _ + 2 => rfl
  have lawful := BitTables.isLawful_vectors circuit.inputCount
  obtain ⟨isolated, functions, _, computed, _, unchanged⟩ := cone_spec loads lawful
  obtain ⟨function, _, tabulated, _, flips⟩ := unchanged 0 output listed
  exact ⟨circuit, loads, listed, pinListed, refers, outside, agree, lawful,
    isolated 0 output listed _ _ rfl rfl agree, functions, function, computed, tabulated,
    (flips 1 pin pinListed outside 1 (by decide)).2.1⟩

end Circuit

end Combinational
