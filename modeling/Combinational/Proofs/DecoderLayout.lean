/-
This file describes where the devices of a decoder are kept.

The input pins stand at the beginning of the arena and their inverters follow. Then there are two
devices for each assignment, the gate that recognizes it and the output pin that forwards the gate.
A gate references devices before it only, so nothing that is built is refused, and the gates have an
evaluation order. No gate reads the one of an assignment, and every inverter is read by the gate of
the assignment in which all pins are false.
-/

import Combinational.Circuit.Family
import Combinational.Proofs.Building
import Combinational.Proofs.Growth

namespace Combinational

namespace Circuit

/-! ### The arena -/

/-- The place of the gate for an assignment. The output pin stands behind it. -/
def mintermPlace (width number : Nat) : Nat :=
  2 * width + 2 * number

theorem two_mul_le_mintermPlace (width number : Nat) : 2 * width ≤ mintermPlace width number :=
  Nat.le_add_right ..

theorem mintermPlace_mod_two (width number : Nat) : mintermPlace width number % 2 = 0 := by
  unfold mintermPlace
  omega

theorem mintermPlace_succ (width number : Nat) :
    mintermPlace width (number + 1) = mintermPlace width number + 1 + 1 := by
  unfold mintermPlace
  omega

/-- The output pin for an assignment stands before the gates for later ones. -/
theorem mintermPlace_succ_lt (width : Nat) {number count : Nat} (inside : number < count) :
    mintermPlace width number + 1 < mintermPlace width count := by
  unfold mintermPlace
  omega

/-- The device at a place of the arena of a decoder. -/
def decoderDevice (width place : Nat) : Device :=
  if place < width then .inputPin false
  else if place < 2 * width then .gate .not [.ofIndex (place - width)]
  else if place % 2 = 0 then .gate .and (minterm width ((place - 2 * width) / 2))
  else .outputPin [.ofIndex (place - 1)]

/-- The decoder with the gates and output pins for the assignments below a number. -/
def decoderArrangement (width count : Nat) : Circuit where
  devices := ((List.range (mintermPlace width count)).map (decoderDevice width)).toArray
  inputs := ((List.range width).map DeviceId.ofIndex).toArray
  gates := ((List.range' width width ++ (List.range count).map (mintermPlace width)).map
    DeviceId.ofIndex).toArray
  outputs := ((List.range count).map fun number =>
    DeviceId.ofIndex (mintermPlace width number + 1)).toArray

theorem size_decoderArrangement (width count : Nat) :
    (decoderArrangement width count).devices.size = mintermPlace width count := by
  simp [decoderArrangement]

theorem getElem?_decoderArrangement {width count place : Nat} (small : place < UInt32.size)
    (inside : place < mintermPlace width count) :
    (decoderArrangement width count).devices[(DeviceId.ofIndex place).index]? =
      some (decoderDevice width place) := by
  rw [DeviceId.index_ofIndex_of_lt small]
  simp [decoderArrangement, inside]

theorem decoderDevice_pin {width place : Nat} (pin : place < width) :
    decoderDevice width place = .inputPin false :=
  if_pos pin

theorem decoderDevice_inverter {width position : Nat} (inside : position < width) :
    decoderDevice width (width + position) = .gate .not [.ofIndex position] := by
  rw [decoderDevice, if_neg (by omega), if_pos (by omega), Nat.add_sub_cancel_left]

theorem decoderDevice_minterm (width number : Nat) :
    decoderDevice width (mintermPlace width number) = .gate .and (minterm width number) := by
  have front := two_mul_le_mintermPlace width number
  have back : (mintermPlace width number - 2 * width) / 2 = number := by
    unfold mintermPlace
    omega
  rw [decoderDevice, if_neg (by omega), if_neg (by omega), if_pos (mintermPlace_mod_two ..), back]

theorem decoderDevice_output (width number : Nat) :
    decoderDevice width (mintermPlace width number + 1) =
      .outputPin [.ofIndex (mintermPlace width number)] := by
  have front := two_mul_le_mintermPlace width number
  have even := mintermPlace_mod_two width number
  rw [decoderDevice, if_neg (by omega), if_neg (by omega), if_neg (by omega), Nat.add_sub_cancel]

/-! ### What the gates reference -/

/-- For each pin, the pin itself or its inverter. -/
theorem minterm_eq (width number : Nat) : minterm width number =
    (List.range width).map fun position =>
      .ofIndex (if number.testBit (width - 1 - position) then position else width + position) := by
  refine List.ext_getElem? fun position => ?_
  by_cases inside : position < width <;>
    simp [minterm, Pattern.bigEndian, inside]

/-- The gate for an assignment references pins and inverters. -/
theorem index_lt_of_mem_minterm {width number : Nat} (small : 2 * width ≤ UInt32.size)
    {reference : DeviceId} (listed : reference ∈ minterm width number) :
    reference.index < 2 * width := by
  rw [minterm_eq] at listed
  obtain ⟨position, member, rfl⟩ := List.mem_map.mp listed
  have inside := List.mem_range.mp member
  split <;> rw [DeviceId.index_ofIndex_of_lt (by omega)] <;> omega

theorem mayDrive_decoderArrangement {width count place : Nat} (small : place < UInt32.size)
    (inside : place < mintermPlace width count)
    (drives : (decoderDevice width place).isOutputPin = false) :
    MayDrive (decoderArrangement width count).devices (.ofIndex place) :=
  ⟨_, getElem?_decoderArrangement small inside, drives⟩

/-! ### Building the arena -/

theorem nextId_decoderArrangement (width count : Nat) :
    (decoderArrangement width count).nextId = .ofIndex (mintermPlace width count) := by
  rw [nextId, size_decoderArrangement]

/-- The arena grows by the gate and the output pin for the next assignment. -/
theorem decoderArrangement_succ (width count : Nat) : decoderArrangement width (count + 1) =
    (((decoderArrangement width count).placeGate .and (minterm width count)).2.placeOutput
      (.ofIndex (mintermPlace width count))).2 := by
  have next := nextId_decoderArrangement width count
  have behind : ((decoderArrangement width count).placeGate .and (minterm width count)).2.nextId =
      .ofIndex (mintermPlace width count + 1) := by
    rw [nextId, size_placeGate, size_decoderArrangement]
  have devices : (decoderArrangement width (count + 1)).devices =
      ((decoderArrangement width count).devices.push (.gate .and (minterm width count))).push
        (.outputPin [.ofIndex (mintermPlace width count)]) := by
    rw [← decoderDevice_minterm, ← decoderDevice_output]
    simp [decoderArrangement, mintermPlace_succ, List.range_succ]
  have gates : (decoderArrangement width (count + 1)).gates =
      (decoderArrangement width count).gates.push (.ofIndex (mintermPlace width count)) := by
    simp [decoderArrangement, List.range_succ]
  have outputs : (decoderArrangement width (count + 1)).outputs =
      (decoderArrangement width count).outputs.push (.ofIndex (mintermPlace width count + 1)) := by
    simp [decoderArrangement, List.range_succ]
  rw [placeOutput, behind]
  simp only [placeGate, next]
  rw [← devices, ← gates, ← outputs]
  rfl

theorem addMinterm_decoderArrangement (width count : Nat) :
    addMinterm width (decoderArrangement width count) count =
      decoderArrangement width (count + 1) := by
  rw [decoderArrangement_succ, ← nextId_decoderArrangement]
  rfl

/-- The input pins and the inverters of the first of them. -/
def invertedPins (width count : Nat) : Circuit :=
  arrangement width ((List.range count).map fun position => (.not, [.ofIndex position]))

theorem size_invertedPins (width count : Nat) :
    (invertedPins width count).devices.size = width + count := by
  rw [invertedPins, size_arrangement, List.length_map, List.length_range]

theorem invertedPins_succ (width count : Nat) : invertedPins width (count + 1) =
    ((invertedPins width count).placeGate .not [.ofIndex count]).2 := by
  rw [invertedPins, invertedPins, placeGate_arrangement, List.range_succ, List.map_append,
    List.map_singleton]

theorem decoderInputs_eq_invertedPins (width : Nat) :
    decoderInputs width = invertedPins width width := by
  have built : ∀ count, (List.range count).foldl
      (fun circuit position => (circuit.placeGate .not [.ofIndex position]).2)
      (empty.addInputs width) = invertedPins width count := by
    intro count
    induction count with
    | zero => exact empty_addInputs width
    | succ count inductionHypothesis =>
      rw [List.range_succ, List.foldl_concat, inductionHypothesis, invertedPins_succ]
  exact built width

theorem decoderInputs_eq (width : Nat) : decoderInputs width = decoderArrangement width 0 := by
  have devices : (List.range (mintermPlace width 0)).map (decoderDevice width) =
      List.replicate width (.inputPin false) ++
        (List.range width).map fun position => .gate .not [.ofIndex position] := by
    have twice : mintermPlace width 0 = width + width := by
      unfold mintermPlace
      omega
    rw [twice, List.range_add, List.map_append, List.map_map]
    congr 1
    · refine List.eq_replicate_iff.mpr ⟨by simp, fun device listed => ?_⟩
      obtain ⟨place, member, rfl⟩ := List.mem_map.mp listed
      exact decoderDevice_pin (List.mem_range.mp member)
    · exact List.map_congr_left fun position member =>
        decoderDevice_inverter (List.mem_range.mp member)
  rw [decoderInputs_eq_invertedPins, invertedPins, arrangement, decoderArrangement, devices]
  simp [Function.comp_def]

theorem foldl_addMinterm (width count : Nat) :
    (List.range count).foldl (addMinterm width) (decoderInputs width) =
      decoderArrangement width count := by
  induction count with
  | zero => exact decoderInputs_eq width
  | succ count inductionHypothesis =>
    rw [List.range_succ, List.foldl_concat, inductionHypothesis, addMinterm_decoderArrangement]

/-! ### Building the arena step by step -/

/-- Adds the inverter of the input pin at a position. -/
def addInverter (built : Circuit × Array DeviceId) (position : Nat) :
    Except Misuse (Circuit × Array DeviceId) := do
  let (gate, placed) := built.1.addGate .not
  let pin ← placed.input position
  let connected ← placed.connect gate pin
  return (connected, built.2.push gate)

/-- Connects the gate for an assignment to the pin at a position or to its inverter. -/
def connectLiteral (width : Nat) (inverters : Array DeviceId) (number : Nat) (gate : DeviceId)
    (circuit : Circuit) (position : Nat) : Except Misuse Circuit := do
  let source ← if number.testBit (width - 1 - position) then circuit.input position
    else entry inverters position
  circuit.connect gate source

/-- Adds the gate and the output pin for an assignment. -/
def buildMinterm (width : Nat) (inverters : Array DeviceId) (circuit : Circuit) (number : Nat) :
    Except Misuse Circuit := do
  let (gate, placed) := circuit.addGate .and
  let connected ← (List.range width).foldlM (connectLiteral width inverters number gate) placed
  exposeSink connected gate

/-- Builds a decoder one operation at a time. -/
def decoderStepwise (width : Nat) : Except Misuse Circuit :=
  if width = 0 then .error .emptyFamily
  else do
    let (inputs, inverters) ← (List.range width).foldlM addInverter (empty.addInputs width, #[])
    let built ← (List.range (Pattern.count width)).foldlM (buildMinterm width inverters) inputs
    ofFamily built.sort

/-- The inverters of the first pins. -/
def inverterIds (width count : Nat) : Array DeviceId :=
  ((List.range count).map fun position => DeviceId.ofIndex (width + position)).toArray

/-- The pins and inverters may drive the next inverter. -/
theorem mayDrive_invertedPins {width count place : Nat} (small : place < UInt32.size)
    (inside : place < width + count) :
    MayDrive (invertedPins width count).devices (.ofIndex place) := by
  rw [invertedPins, mayDrive_arrangement, DeviceId.index_ofIndex_of_lt small, List.length_map,
    List.length_range]
  exact inside

theorem addInverter_invertedPins {width count : Nat} (inside : count < width)
    (small : width + count < UInt32.size) :
    addInverter (invertedPins width count, inverterIds width count) count =
      .ok (invertedPins width (count + 1), inverterIds width (count + 1)) := by
  have size := size_invertedPins width count
  have connects := connect_placeGate (size ▸ small)
    (mayDrive_invertedPins (by omega) (Nat.lt_add_right count inside)) .not []
  have gate : (inverterIds width count).push (invertedPins width count).nextId =
      inverterIds width (count + 1) := by
    simp [inverterIds, nextId, size, List.range_succ]
  have pin : (invertedPins width count).input count = .ok (.ofIndex count) :=
    input_arrangement inside ((List.range count).map fun position => (.not, [.ofIndex position]))
  rw [invertedPins_succ, ← gate]
  exact bind_eq_ok_iff.mpr ⟨_, pin, bind_eq_ok_iff.mpr ⟨_, connects, rfl⟩⟩

/-- The inverters are added after the pins. -/
theorem foldlM_addInverter {width count : Nat} (inside : count ≤ width)
    (small : width + count ≤ UInt32.size) :
    (List.range count).foldlM addInverter (empty.addInputs width, #[]) =
      .ok (invertedPins width count, inverterIds width count) := by
  induction count with
  | zero =>
    rw [empty_addInputs]
    rfl
  | succ count inductionHypothesis =>
    rw [List.range_succ, List.foldlM_append, inductionHypothesis (by omega) (by omega)]
    exact bind_eq_ok_iff.mpr ⟨_, rfl, bind_eq_ok_iff.mpr ⟨_,
      addInverter_invertedPins inside small, rfl⟩⟩

/-- The literal of a pin in the gate for an assignment may drive it. -/
theorem mayDrive_literal {width count position : Nat} (small : 2 * width ≤ UInt32.size)
    (inside : position < width) (number : Nat) :
    MayDrive (decoderArrangement width count).devices
      (.ofIndex (if number.testBit (width - 1 - position) then position
        else width + position)) := by
  have front := two_mul_le_mintermPlace width count
  split
  · refine mayDrive_decoderArrangement (by omega) (by omega) ?_
    rw [decoderDevice_pin inside]
    rfl
  · refine mayDrive_decoderArrangement (by omega) (by omega) ?_
    rw [decoderDevice_inverter inside]
    rfl

/-- The gate for an assignment may drive the output pin that is placed next. -/
theorem mayDrive_minterm {width count : Nat} (small : mintermPlace width count < UInt32.size) :
    MayDrive ((decoderArrangement width count).placeGate .and (minterm width count)).2.devices
      (.ofIndex (mintermPlace width count)) := by
  refine ⟨.gate .and (minterm width count), ?_, rfl⟩
  rw [DeviceId.index_ofIndex_of_lt small, ← size_decoderArrangement width count]
  exact Array.getElem?_push_size

/-- The literal of a pin is found in the list of the pins or of the inverters. -/
theorem connectLiteral_eq_ok {width count number position : Nat} {gate : DeviceId}
    {current connected : Circuit} (inside : position < width)
    (inputs : current.inputs = (decoderArrangement width count).inputs)
    (connects : current.connect gate (.ofIndex (if number.testBit (width - 1 - position)
      then position else width + position)) = .ok connected) :
    connectLiteral width (inverterIds width width) number gate current position =
      .ok connected := by
  have pin : current.input position = .ok (.ofIndex position) := by
    rw [input, inputs, entry]
    simp [decoderArrangement, inside]
  have inverter : entry (inverterIds width width) position = .ok (.ofIndex (width + position)) := by
    rw [entry]
    simp [inverterIds, inside]
  unfold connectLiteral
  split at connects
  · next bit =>
    rw [if_pos bit]
    exact bind_eq_ok_iff.mpr ⟨_, pin, connects⟩
  · next bit =>
    rw [if_neg bit]
    exact bind_eq_ok_iff.mpr ⟨_, inverter, connects⟩

theorem buildMinterm_decoderArrangement {width count : Nat}
    (small : mintermPlace width count + 1 < UInt32.size) :
    buildMinterm width (inverterIds width width) (decoderArrangement width count) count =
      .ok (decoderArrangement width (count + 1)) := by
  have size := size_decoderArrangement width count
  have front := two_mul_le_mintermPlace width count
  have connects : (List.range width).foldlM
      (connectLiteral width (inverterIds width width) count (decoderArrangement width count).nextId)
      ((decoderArrangement width count).addGate .and).2 =
        .ok ((decoderArrangement width count).placeGate .and (minterm width count)).2 := by
    rw [minterm_eq]
    exact foldlM_connect .and (by omega)
      (fun position member => mayDrive_literal (by omega) (List.mem_range.mp member) count)
      fun position member current connected inputs connects =>
        connectLiteral_eq_ok (List.mem_range.mp member) inputs connects
  have exposes : exposeSink ((decoderArrangement width count).placeGate .and
      (minterm width count)).2 (decoderArrangement width count).nextId =
        .ok (decoderArrangement width (count + 1)) := by
    have added := addOutput_of_mayDrive (by rw [size_placeGate, size]; exact small)
      (mayDrive_minterm (Nat.lt_of_succ_lt small))
    rw [exposeSink, nextId_decoderArrangement, added, decoderArrangement_succ]
    rfl
  exact bind_eq_ok_iff.mpr ⟨_, connects, exposes⟩

theorem foldlM_buildMinterm {width count : Nat} (small : mintermPlace width count ≤ UInt32.size) :
    (List.range count).foldlM (buildMinterm width (inverterIds width width))
      (decoderArrangement width 0) = .ok (decoderArrangement width count) := by
  induction count with
  | zero => rfl
  | succ count inductionHypothesis =>
    rw [mintermPlace_succ] at small
    rw [List.range_succ, List.foldlM_append, inductionHypothesis (by omega)]
    exact bind_eq_ok_iff.mpr ⟨_, rfl, bind_eq_ok_iff.mpr ⟨_,
      buildMinterm_decoderArrangement small, rfl⟩⟩

/-- Building a decoder step by step takes no step that is refused, and gives the decoder. -/
theorem decoderStepwise_eq {width : Nat}
    (room : mintermPlace width (Pattern.count width) < UInt32.size) :
    decoderStepwise width = decoder width := by
  have front := two_mul_le_mintermPlace width (Pattern.count width)
  have inverted := foldlM_addInverter (le_refl width) (by omega)
  rw [← decoderInputs_eq_invertedPins, decoderInputs_eq] at inverted
  have built : (List.range (Pattern.count width)).foldlM
      (buildMinterm width (inverterIds width width)) (decoderArrangement width 0) =
        .ok (decoderArrangement width (Pattern.count width)) :=
    foldlM_buildMinterm room.le
  rw [decoderStepwise, decoder, foldl_addMinterm, inverted]
  refine if_congr Iff.rfl rfl ?_
  show ((List.range (Pattern.count width)).foldlM (buildMinterm width (inverterIds width width))
    (decoderArrangement width 0) >>= fun built => ofFamily built.sort) = _
  rw [built]
  rfl

/-! ### The arena is constructed -/

theorem isConstructed_invertedPins {width count : Nat} (inside : count ≤ width)
    (small : width + count ≤ UInt32.size) : (invertedPins width count).IsConstructed := by
  induction count with
  | zero =>
    have pins := IsConstructed.empty.addInputs width
    rwa [empty_addInputs] at pins
  | succ count inductionHypothesis =>
    have sooner := inductionHypothesis (by omega) (by omega)
    rw [invertedPins_succ]
    refine sooner.placeGate (by rw [size_invertedPins]; omega) .not fun reference listed => ?_
    rw [List.mem_singleton.mp listed]
    exact mayDrive_invertedPins (by omega) (by omega)

theorem isConstructed_decoderArrangement {width count : Nat}
    (small : mintermPlace width count ≤ UInt32.size) :
    (decoderArrangement width count).IsConstructed := by
  induction count with
  | zero =>
    rw [← decoderInputs_eq, decoderInputs_eq_invertedPins]
    have front := two_mul_le_mintermPlace width 0
    exact isConstructed_invertedPins le_rfl (by omega)
  | succ count inductionHypothesis =>
    rw [mintermPlace_succ] at small
    have size := size_decoderArrangement width count
    have front := two_mul_le_mintermPlace width count
    have literals : ∀ reference ∈ minterm width count,
        MayDrive (decoderArrangement width count).devices reference := by
      intro reference listed
      rw [minterm_eq] at listed
      obtain ⟨position, member, rfl⟩ := List.mem_map.mp listed
      exact mayDrive_literal (by omega) (List.mem_range.mp member) count
    have placed := (inductionHypothesis (by omega)).placeGate (by omega) .and literals
    rw [decoderArrangement_succ]
    exact placed.placeOutput (by rw [size_placeGate]; omega) (mayDrive_minterm (by omega))

/-! ### Finding the devices -/

section Devices

variable {width count : Nat} (small : mintermPlace width count < UInt32.size)

include small

theorem getElem?_inverter {position : Nat} (inside : position < width) :
    (decoderArrangement width count).devices[(DeviceId.ofIndex (width + position)).index]? =
      some (.gate .not [.ofIndex position]) := by
  have front := two_mul_le_mintermPlace width count
  rw [getElem?_decoderArrangement (by omega) (by omega), decoderDevice_inverter inside]

theorem getElem?_minterm {number : Nat} (inside : number < count) :
    (decoderArrangement width count).devices[
        (DeviceId.ofIndex (mintermPlace width number)).index]? =
      some (.gate .and (minterm width number)) := by
  have earlier := mintermPlace_succ_lt width inside
  rw [getElem?_decoderArrangement (by omega) (by omega), decoderDevice_minterm]

theorem getElem?_mintermOutput {number : Nat} (inside : number < count) :
    (decoderArrangement width count).devices[
        (DeviceId.ofIndex (mintermPlace width number + 1)).index]? =
      some (.outputPin [.ofIndex (mintermPlace width number)]) := by
  have earlier := mintermPlace_succ_lt width inside
  rw [getElem?_decoderArrangement (by omega) (by omega), decoderDevice_output]

omit small in
theorem toList_gates_decoderArrangement : (decoderArrangement width count).gates.toList =
    ((List.range width).map fun position => DeviceId.ofIndex (width + position)) ++
      (List.range count).map fun number => DeviceId.ofIndex (mintermPlace width number) := by
  rw [decoderArrangement, List.range'_eq_map_range, List.map_append, List.map_map, List.map_map]
  rfl

omit small in
/-- The gates are the inverters and the gates for the assignments. -/
theorem mem_gates_decoderArrangement_iff {id : DeviceId} :
    id ∈ (decoderArrangement width count).gates ↔
      (∃ position < width, DeviceId.ofIndex (width + position) = id) ∨
        ∃ number < count, DeviceId.ofIndex (mintermPlace width number) = id := by
  rw [← Array.mem_toList_iff, toList_gates_decoderArrangement, List.mem_append, List.mem_map,
    List.mem_map]
  simp only [List.mem_range]

omit small in
theorem inverter_mem_gates {position : Nat} (inside : position < width) :
    .ofIndex (width + position) ∈ (decoderArrangement width count).gates :=
  mem_gates_decoderArrangement_iff.mpr (Or.inl ⟨position, inside, rfl⟩)

omit small in
theorem minterm_mem_gates {number : Nat} (inside : number < count) :
    .ofIndex (mintermPlace width number) ∈ (decoderArrangement width count).gates :=
  mem_gates_decoderArrangement_iff.mpr (Or.inr ⟨number, inside, rfl⟩)

theorem references_inverter {position : Nat} (inside : position < width) :
    (decoderArrangement width count).references (.ofIndex (width + position)) =
      [.ofIndex position] := by
  rw [references, getElem?_inverter small inside]
  rfl

theorem references_minterm {number : Nat} (inside : number < count) :
    (decoderArrangement width count).references (.ofIndex (mintermPlace width number)) =
      minterm width number := by
  rw [references, getElem?_minterm small inside]
  rfl

/-- A gate references pins and inverters that stand before it. -/
theorem index_lt_of_mem_references {gate reference : DeviceId}
    (member : gate ∈ (decoderArrangement width count).gates)
    (listed : reference ∈ (decoderArrangement width count).references gate) :
    reference.index < gate.index ∧ reference.index < 2 * width := by
  have room := Nat.lt_of_le_of_lt (two_mul_le_mintermPlace width count) small
  rcases mem_gates_decoderArrangement_iff.mp member with ⟨position, inside, rfl⟩ |
    ⟨number, inside, rfl⟩
  · rw [references_inverter small inside] at listed
    rw [List.mem_singleton.mp listed, DeviceId.index_ofIndex_of_lt (by omega),
      DeviceId.index_ofIndex_of_lt (by omega)]
    omega
  · rw [references_minterm small inside] at listed
    have early := index_lt_of_mem_minterm room.le listed
    have front := two_mul_le_mintermPlace width number
    have earlier := mintermPlace_succ_lt width inside
    rw [DeviceId.index_ofIndex_of_lt (by omega)]
    omega

/-- Following references leads to places further to the front. -/
theorem isAcyclic_decoderArrangement : (decoderArrangement width count).IsAcyclic :=
  loopless_of_rank DeviceId.index fun _ _ reads =>
    (index_lt_of_mem_references small reads.1 reads.2.2).1

/-- The first gate for an assignment reads all the inverters. -/
theorem reads_inverter (positive : 0 < count) {position : Nat} (inside : position < width) :
    (decoderArrangement width count).Reads (.ofIndex (mintermPlace width 0))
      (.ofIndex (width + position)) := by
  refine ⟨minterm_mem_gates positive, inverter_mem_gates inside, ?_⟩
  rw [references_minterm small positive, minterm_eq]
  exact List.mem_map.mpr ⟨position, List.mem_range.mpr inside, by simp⟩

theorem not_reads_minterm {number : Nat} (inside : number < count) (consumer : DeviceId) :
    ¬ (decoderArrangement width count).Reads consumer (.ofIndex (mintermPlace width number)) := by
  intro reads
  have early := (index_lt_of_mem_references small reads.1 reads.2.2).2
  have front := two_mul_le_mintermPlace width number
  have earlier := mintermPlace_succ_lt width inside
  rw [DeviceId.index_ofIndex_of_lt (by omega)] at early
  omega

/-- The gates for the assignments are those that no gate reads, in their order. -/
theorem toList_sinks_decoderArrangement (positive : 0 < count) :
    (decoderArrangement width count).sinks.toList =
      (List.range count).map fun number => DeviceId.ofIndex (mintermPlace width number) := by
  have size := size_decoderArrangement width count
  have wellFormed := (isConstructed_decoderArrangement small.le).reachable.wellFormed
    (size.symm ▸ small)
  have isSink : ∀ gate ∈ (decoderArrangement width count).gates,
      ((decoderArrangement width count).pendingReferences [] gate = 0 ↔
        ∀ consumer, ¬ (decoderArrangement width count).Reads consumer gate) :=
    fun gate member => pendingReferences_nil_eq_zero_iff member
  rw [toList_sinks wellFormed (size.trans_le small.le), toList_gates_decoderArrangement,
    List.filter_append, List.filter_eq_nil_iff.mpr, List.nil_append, List.filter_eq_self.mpr]
  · intro gate listed
    obtain ⟨number, member, rfl⟩ := List.mem_map.mp listed
    have inside := List.mem_range.mp member
    rw [decide_eq_true_eq, isSink _ (minterm_mem_gates inside)]
    exact not_reads_minterm small inside
  · intro gate listed
    obtain ⟨position, member, rfl⟩ := List.mem_map.mp listed
    have inside := List.mem_range.mp member
    rw [decide_eq_true_eq, isSink _ (inverter_mem_gates inside)]
    exact fun free => free _ (reads_inverter small positive inside)

end Devices

end Circuit

end Combinational
