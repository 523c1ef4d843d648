/-
This file proves what a decoder computes.

Whatever the values of the pins, an inverter has the opposite value of its pin. So the literal of a
pin in the gate for an assignment is true exactly if the pin has its value in that assignment, and
the gate is true exactly at the assignment. As numbers have a single binary form, exactly one output
is true in each row of the table, and no two outputs have the same function.

The gate for the assignment in which all pins are false reads inverters, which read pins, and no
gate is deeper.
-/

import Combinational.Proofs.DecoderLayout
import Combinational.Proofs.Grouping
import Combinational.Proofs.SignalPaths

namespace Combinational

namespace Circuit

/-! ### What sorting leaves alone -/

section Unordered

variable {circuit sorted : Circuit} (sorts : circuit.sort = .ok sorted)

include sorts

theorem eq_withOrder_of_sort : sorted = { circuit with order := sorted.order } := by
  obtain ⟨_, rfl⟩ := sort_eq_ok_iff.mp sorts
  rfl

theorem devices_of_sort : sorted.devices = circuit.devices := by
  rw [eq_withOrder_of_sort sorts]

theorem gates_of_sort : sorted.gates = circuit.gates := by
  rw [eq_withOrder_of_sort sorts]

theorem references_of_sort (id : DeviceId) : sorted.references id = circuit.references id := by
  rw [references, references, devices_of_sort sorts]

end Unordered

/-! ### The sorted decoder -/

section Sorted

variable {width : Nat} (positive : 0 < width)
  (room : mintermPlace width (Pattern.count width) < UInt32.size) {circuit : Circuit}
  (sorts : (decoderArrangement width (Pattern.count width)).sort = .ok circuit)

include sorts

theorem toList_inputs_of_sort :
    circuit.inputs.toList = (List.range width).map DeviceId.ofIndex := by
  rw [eq_withOrder_of_sort sorts, decoderArrangement]

theorem toList_outputs_of_sort : circuit.outputs.toList =
    (List.range (Pattern.count width)).map fun number =>
      DeviceId.ofIndex (mintermPlace width number + 1) := by
  rw [eq_withOrder_of_sort sorts, decoderArrangement]

theorem inverter_mem_gates_of_sort {position : Nat} (inside : position < width) :
    .ofIndex (width + position) ∈ circuit.gates := by
  rw [gates_of_sort sorts]
  exact inverter_mem_gates inside

theorem minterm_mem_gates_of_sort {number : Nat} (inside : number < Pattern.count width) :
    .ofIndex (mintermPlace width number) ∈ circuit.gates := by
  rw [gates_of_sort sorts]
  exact minterm_mem_gates inside

theorem inputCount_of_sort : circuit.inputCount = width := by
  rw [inputCount, ← Array.length_toList, toList_inputs_of_sort sorts, List.length_map,
    List.length_range]

theorem gateCount_of_sort : circuit.gateCount = width + Pattern.count width := by
  rw [gateCount, gates_of_sort sorts, ← Array.length_toList, toList_gates_decoderArrangement,
    List.length_append, List.length_map, List.length_range, List.length_map, List.length_range]

theorem outputCount_of_sort : circuit.outputCount = Pattern.count width := by
  rw [outputCount, ← Array.length_toList, toList_outputs_of_sort sorts, List.length_map,
    List.length_range]

include room

theorem size_of_sort : circuit.devices.size < UInt32.size := by
  rw [devices_of_sort sorts, size_decoderArrangement]
  exact room

theorem isConstructed_of_sort : circuit.IsConstructed :=
  (isConstructed_decoderArrangement room.le).sort sorts

theorem device_inverter_of_sort {position : Nat} (inside : position < width) :
    circuit.device (.ofIndex (width + position)) = .ok (.gate .not [.ofIndex position]) := by
  rw [device_eq_ok_iff, devices_of_sort sorts]
  exact getElem?_inverter room inside

theorem device_minterm_of_sort {number : Nat} (inside : number < Pattern.count width) :
    circuit.device (.ofIndex (mintermPlace width number)) =
      .ok (.gate .and (minterm width number)) := by
  rw [device_eq_ok_iff, devices_of_sort sorts]
  exact getElem?_minterm room inside

theorem device_output_of_sort {number : Nat} (inside : number < Pattern.count width) :
    circuit.device (.ofIndex (mintermPlace width number + 1)) =
      .ok (.outputPin [.ofIndex (mintermPlace width number)]) := by
  rw [device_eq_ok_iff, devices_of_sort sorts]
  exact getElem?_mintermOutput room inside

theorem references_output_of_sort {number : Nat} (inside : number < Pattern.count width) :
    circuit.references (.ofIndex (mintermPlace width number + 1)) =
      [.ofIndex (mintermPlace width number)] :=
  references_of_getElem? (device_eq_ok_iff.mp (device_output_of_sort room sorts inside))

/-- Each output pin forwards the next sink. -/
theorem map_device_outputs_of_sort : circuit.outputs.toList.map circuit.device =
    circuit.sinks.toList.map fun sink => .ok (.outputPin [sink]) := by
  have sinks : circuit.sinks = (decoderArrangement width (Pattern.count width)).sinks := by
    rw [eq_withOrder_of_sort sorts]
    rfl
  rw [sinks, toList_sinks_decoderArrangement room (Pattern.count_pos width),
    toList_outputs_of_sort sorts, List.map_map, List.map_map]
  exact List.map_congr_left fun number member =>
    device_output_of_sort room sorts (List.mem_range.mp member)

include positive

theorem hasConnectedGates_of_sort : circuit.HasConnectedGates := by
  intro gate member
  rw [gates_of_sort sorts, mem_gates_decoderArrangement_iff] at member
  rw [references_of_sort sorts]
  rcases member with ⟨position, inside, rfl⟩ | ⟨number, inside, rfl⟩
  · rw [references_inverter room inside]
    exact List.cons_ne_nil _ _
  · rw [references_minterm room inside, minterm_eq, ne_eq, List.map_eq_nil_iff, List.range_eq_nil]
    omega

theorem check_of_sort : circuit.check = .ok () := by
  have small := size_of_sort room sorts
  refine Lcf.check_eq_ok ((isConstructed_of_sort room sorts).reachable.wellFormed small) small.le
    (hasConnectedGates_of_sort positive room sorts) fun output member => ?_
  rw [← Array.mem_toList_iff, toList_outputs_of_sort sorts] at member
  obtain ⟨number, listed, rfl⟩ := List.mem_map.mp member
  rw [references_output_of_sort room sorts (List.mem_range.mp listed), List.length_singleton]

end Sorted

/-! ### The values -/

section Values

variable {width : Nat} (room : mintermPlace width (Pattern.count width) < UInt32.size)
  {circuit : Circuit} (sorts : (decoderArrangement width (Pattern.count width)).sort = .ok circuit)
  {values : List Bool} {valuation : DeviceId → Bool} (solves : circuit.Solves values valuation)

include sorts solves

theorem getElem?_values_of_solves {position : Nat} (inside : position < width) :
    values[position]? = some (valuation (.ofIndex position)) := by
  refine solves.input position (.ofIndex position) ?_
  rw [← Array.getElem?_toList, toList_inputs_of_sort sorts]
  simp [inside]

include room

/-- The literal of a pin is true exactly if the pin has its value in the assignment. -/
theorem literal_of_solves {position number : Nat} (inside : position < width) :
    valuation (.ofIndex (if number.testBit (width - 1 - position) then position
      else width + position)) = true ↔
        values[position]? = some (number.testBit (width - 1 - position)) := by
  have pin := getElem?_values_of_solves sorts solves inside
  have member := inverter_mem_gates_of_sort sorts inside
  have inverter := solves.not _ _ _ member (device_inverter_of_sort room sorts inside)
  rw [pin, Option.some.injEq]
  cases number.testBit (width - 1 - position) with
  | true => rfl
  | false =>
    show valuation (.ofIndex (width + position)) = true ↔ _
    rw [inverter, Bool.not_eq_true']

variable (length : values.length = width)

include length

/-- The gate for an assignment is true exactly if the pins have its binary form. -/
theorem minterm_of_solves {number : Nat} (inside : number < Pattern.count width) :
    valuation (.ofIndex (mintermPlace width number)) = true ↔
      values = Pattern.bigEndian width number := by
  have member := minterm_mem_gates_of_sort sorts inside
  rw [solves.and _ _ member (device_minterm_of_sort room sorts inside), minterm_eq,
    List.forall_mem_map]
  constructor
  · intro literals
    refine List.ext_getElem? fun position => ?_
    by_cases below : position < width
    · rw [Pattern.getElem?_bigEndian number below]
      exact (literal_of_solves room sorts solves below).mp
        (literals position (List.mem_range.mpr below))
    · rw [List.getElem?_eq_none (by omega), List.getElem?_eq_none (by
        rw [Pattern.length_bigEndian]; omega)]
  · rintro rfl position listed
    have below := List.mem_range.mp listed
    exact (literal_of_solves room sorts solves below).mpr (Pattern.getElem?_bigEndian number below)

/-- The output pins have the values of the gates for the assignments. -/
theorem map_outputs_of_solves : circuit.outputs.toList.map valuation =
    (List.range (Pattern.count width)).map fun number =>
      decide (values = Pattern.bigEndian width number) := by
  rw [toList_outputs_of_sort sorts, List.map_map]
  refine List.map_congr_left fun number listed => ?_
  have inside := List.mem_range.mp listed
  have member : .ofIndex (mintermPlace width number + 1) ∈ circuit.outputs := by
    rw [← Array.mem_toList_iff, toList_outputs_of_sort sorts]
    exact List.mem_map.mpr ⟨number, listed, rfl⟩
  have forwards := solves.output _ _ _ member (device_output_of_sort room sorts inside)
  rw [Function.comp_apply, forwards, Bool.eq_iff_iff, decide_eq_true_eq]
  exact minterm_of_solves room sorts solves length inside

end Values

/-! ### The depths -/

section Depths

variable {width : Nat} (room : mintermPlace width (Pattern.count width) < UInt32.size)
  {circuit : Circuit} (sorts : (decoderArrangement width (Pattern.count width)).sort = .ok circuit)
  {depths : DeviceId → Nat} (fits : Rule.depth.Fits circuit depths)

include sorts fits

theorem depths_pin {position : Nat} (inside : position < width) :
    depths (.ofIndex position) = 0 := by
  refine depths_of_mem_inputs fits ?_
  rw [← Array.mem_toList_iff, toList_inputs_of_sort sorts]
  exact List.mem_map.mpr ⟨position, List.mem_range.mpr inside, rfl⟩

include room

theorem depths_inverter {position : Nat} (inside : position < width) :
    depths (.ofIndex (width + position)) = 1 := by
  have member := inverter_mem_gates_of_sort sorts inside
  have deeper : depths (.ofIndex (width + position)) = max 0 (depths (.ofIndex position)) + 1 :=
    fits.gate _ member _ _ (device_eq_ok_iff.mp (device_inverter_of_sort room sorts inside))
  rw [deeper, depths_pin sorts fits inside]
  rfl

theorem depths_literal_le {position number : Nat} (inside : position < width) :
    depths (.ofIndex (if number.testBit (width - 1 - position) then position
      else width + position)) ≤ 1 := by
  split
  · rw [depths_pin sorts fits inside]
    exact Nat.zero_le 1
  · rw [depths_inverter room sorts fits inside]

theorem depths_minterm {number : Nat} (inside : number < Pattern.count width) :
    depths (.ofIndex (mintermPlace width number)) =
      ((minterm width number).map depths).foldl max 0 + 1 := by
  have member := minterm_mem_gates_of_sort sorts inside
  exact fits.gate _ member _ _ (device_eq_ok_iff.mp (device_minterm_of_sort room sorts inside))

theorem depths_minterm_le {number : Nat} (inside : number < Pattern.count width) :
    depths (.ofIndex (mintermPlace width number)) ≤ 2 := by
  rw [depths_minterm room sorts fits inside, Nat.succ_le_succ_iff, foldl_max_le_iff]
  intro depth listed
  obtain ⟨reference, literal, rfl⟩ := List.mem_map.mp listed
  rw [minterm_eq] at literal
  obtain ⟨position, member, rfl⟩ := List.mem_map.mp literal
  exact depths_literal_le room sorts fits (List.mem_range.mp member)

/-- The gate for the assignment in which all pins are false reads an inverter. -/
theorem two_le_depths_minterm_zero (positive : 0 < width) :
    2 ≤ depths (.ofIndex (mintermPlace width 0)) := by
  have listed : .ofIndex (width + 0) ∈ minterm width 0 := by
    rw [minterm_eq]
    exact List.mem_map.mpr ⟨0, List.mem_range.mpr positive, by simp⟩
  have least := (foldl_max_le_iff.mp le_rfl) _ (List.mem_map_of_mem (f := depths) listed)
  rw [depths_inverter room sorts fits positive] at least
  rw [depths_minterm room sorts fits (Pattern.count_pos width)]
  exact Nat.succ_le_succ least

/-- The deepest gates are those that read inverters. -/
theorem foldl_max_depths_outputs (positive : 0 < width) :
    ((circuit.outputs.toList.flatMap circuit.references).map depths).foldl max 0 = 2 := by
  have drivers : circuit.outputs.toList.flatMap circuit.references =
      (List.range (Pattern.count width)).map fun number =>
        DeviceId.ofIndex (mintermPlace width number) := by
    rw [toList_outputs_of_sort sorts, List.flatMap_map, List.map_eq_flatMap]
    exact List.flatMap_congr fun number listed =>
      references_output_of_sort room sorts (List.mem_range.mp listed)
  rw [drivers, List.map_map]
  refine Nat.le_antisymm (foldl_max_le_iff.mpr fun depth listed => ?_) ?_
  · obtain ⟨number, member, rfl⟩ := List.mem_map.mp listed
    exact depths_minterm_le room sorts fits (List.mem_range.mp member)
  · refine (two_le_depths_minterm_zero room sorts fits positive).trans
      (foldl_max_le_iff.mp le_rfl _ (List.mem_map.mpr ⟨0, ?_, rfl⟩))
    exact List.mem_range.mpr (Pattern.count_pos width)

end Depths

/-! ### The functions -/

section Functions

variable {width : Nat} (positive : 0 < width)
  (room : mintermPlace width (Pattern.count width) < UInt32.size) {circuit : Circuit}
  (sorts : (decoderArrangement width (Pattern.count width)).sort = .ok circuit)

include positive room sorts

theorem hasConnectedNots_of_sort : circuit.HasConnectedNots :=
  hasConnectedNots_of_connected (hasConnectedGates_of_sort positive room sorts)

/-- Each output is true exactly at its own assignment. -/
theorem response_of_sort {values : List Bool} (length : values.length = width) :
    circuit.response values = (List.range (Pattern.count width)).map fun number =>
      decide (values = Pattern.bigEndian width number) := by
  obtain ⟨_, valuation, solves, outputs⟩ := exists_solves_response
    (isConstructed_of_sort room sorts).reachable (size_of_sort room sorts) (isSorted_of_sort sorts)
    (hasConnectedNots_of_sort positive room sorts) (length.trans (inputCount_of_sort sorts).symm)
  rw [outputs]
  exact map_outputs_of_solves room sorts solves length

theorem exists_outputValues_of_sort {values : List Bool} (length : values.length = width) :
    ∃ assigned, circuit.setInputs values = .ok assigned ∧
      assigned.outputValues = .ok ((List.range (Pattern.count width)).map fun number =>
        decide (values = Pattern.bigEndian width number)) := by
  have reachable := (isConstructed_of_sort room sorts).reachable
  have small := size_of_sort room sorts
  have count := length.trans (inputCount_of_sort sorts).symm
  obtain ⟨evaluates, _⟩ := exists_solves_response reachable small (isSorted_of_sort sorts)
    (hasConnectedNots_of_sort positive room sorts) count
  rw [response_of_sort positive room sorts length] at evaluates
  exact ⟨_, setInputs_eq (reachable.wellFormed small) small.le count, evaluates⟩

/-- Each row has its own output true, and no other. -/
theorem exists_truthTable_of_sort (few : width < 64) :
    ∃ table, circuit.truthTable.1 = .ok table ∧ table.rows.size = Pattern.count width ∧
      ∀ number < Pattern.count width, table.row number = .ok
        { inputs := Pattern.bigEndian width number
          outputs := (List.range (Pattern.count width)).map fun column =>
            decide (column = number) } := by
  have reachable := (isConstructed_of_sort room sorts).reachable
  have small := size_of_sort room sorts
  have pins := inputCount_of_sort sorts
  have table := truthTable_eq_fullTable (reachable.wellFormed small) small.le
    (responds_of_isSorted reachable small (isSorted_of_sort sorts)
      (hasConnectedNots_of_sort positive room sorts)) (by rw [pins]; exact ⟨positive, few⟩)
  refine ⟨circuit.fullTable, congrArg Prod.fst table, by rw [size_rows_fullTable, pins],
    fun number below => ?_⟩
  rw [TruthTable.row_eq_ok_iff, getElem?_rows_fullTable circuit (pins.symm ▸ below), pins, rowFor,
    response_of_sort positive room sorts (Pattern.length_bigEndian width number)]
  refine congrArg (fun outputs => some (Row.mk (Pattern.bigEndian width number) outputs))
    (List.map_congr_left fun column listed => ?_)
  rw [decide_eq_decide, Pattern.bigEndian_inj below (List.mem_range.mp listed), eq_comm]

theorem exists_statistics_of_sort : ∃ statistics, circuit.statistics = .ok statistics ∧
    statistics.depth = 2 := by
  have constructed := isConstructed_of_sort room sorts
  have small := size_of_sort room sorts
  have sorted := isSorted_of_sort sorts
  obtain ⟨depths, fits⟩ := exists_fits_depth constructed small sorted
  obtain ⟨statistics, known, depth⟩ := exists_statistics_depth constructed small sorted fits
  exact ⟨statistics, known, depth.trans (foldl_max_depths_outputs room sorts fits positive)⟩

/-- No two outputs have the same function. -/
theorem exists_outputFunctions_of_sort :
    ∃ functions, circuit.outputFunctions.1 = .ok functions ∧
      functions.length = Pattern.count width ∧ LookupTable.equivalent functions = [] := by
  have reachable := (isConstructed_of_sort room sorts).reachable
  have known := outputFunctions_eq reachable (size_of_sort room sorts) (isSorted_of_sort sorts)
    (hasConnectedNots_of_sort positive room sorts)
  have outputs := outputCount_of_sort sorts
  have pins := inputCount_of_sort sorts
  have bit : ∀ position < Pattern.count width, ∀ mask, circuit.outputBit position mask =
      decide (Pattern.littleEndian width mask = Pattern.bigEndian width position) := by
    intro position inside mask
    rw [outputBit, pins, response_of_sort positive room sorts (Pattern.length_littleEndian ..)]
    simp [inside]
  refine ⟨(List.range circuit.outputCount).map circuit.outputFunction, congrArg Prod.fst known,
    by simp [outputs], LookupTable.equivalent_of_nodup ?_⟩
  refine List.Nodup.map_on (fun first firstListed second secondListed same => ?_) List.nodup_range
  rw [outputs, List.mem_range] at firstListed secondListed
  -- At its own assignment, the first output is true.
  have agree := outputFunction_eq_iff.mp same (Pattern.reversed width first)
    (pins ▸ Pattern.reversed_lt width first)
  rw [bit first firstListed, bit second secondListed, Pattern.littleEndian_reversed,
    decide_eq_decide] at agree
  exact (Pattern.bigEndian_inj firstListed secondListed).mp (agree.mp rfl)

end Functions

/-! ### Main statement -/

/-- What is known of the decoder of some input pins. -/
structure IsDecoder (circuit : Circuit) (width : Nat) : Prop where
  isSorted : circuit.isSorted = true
  isEvaluationOrder : circuit.IsEvaluationOrder circuit.order.toList
  check_eq_ok : circuit.check = .ok ()
  inputCount_eq : circuit.inputCount = width
  gateCount_eq : circuit.gateCount = width + Pattern.count width
  outputCount_eq : circuit.outputCount = Pattern.count width
  /-- The output pins forward the sinks. -/
  outputs : circuit.outputs.toList.map circuit.device =
    circuit.sinks.toList.map fun sink => .ok (.outputPin [sink])
  /-- The sinks are the gates that no gate reads, in gate order. -/
  sinks : circuit.sinks.toList.Sublist circuit.gates.toList ∧
    ∀ gate, gate ∈ circuit.sinks ↔
      gate ∈ circuit.gates ∧ ∀ consumer, ¬ circuit.Reads consumer gate
  /-- An output is true exactly if the pins have the binary form of its number, the first pin
  carrying the most significant bit. -/
  exists_outputValues : ∀ values : List Bool, values.length = width →
    ∃ assigned, circuit.setInputs values = .ok assigned ∧
      assigned.outputValues = .ok ((List.range (Pattern.count width)).map fun number =>
        decide (values = Pattern.bigEndian width number))
  /-- Each row has its own output true, and no other. -/
  exists_truthTable : ∃ table, circuit.truthTable.1 = .ok table ∧
    table.rows.size = Pattern.count width ∧
    ∀ number < Pattern.count width, table.row number = .ok
      { inputs := Pattern.bigEndian width number
        outputs := (List.range (Pattern.count width)).map fun column => decide (column = number) }
  exists_statistics : ∃ statistics, circuit.statistics = .ok statistics ∧ statistics.depth = 2
  /-- No two outputs have the same function. -/
  exists_outputFunctions : ∃ functions, circuit.outputFunctions.1 = .ok functions ∧
    functions.length = Pattern.count width ∧ LookupTable.equivalent functions = []

theorem isDecoder_of_sort {width : Nat} (positive : 0 < width) (few : width < 64)
    (room : mintermPlace width (Pattern.count width) < UInt32.size) {circuit : Circuit}
    (sorts : (decoderArrangement width (Pattern.count width)).sort = .ok circuit) :
    circuit.IsDecoder width where
  isSorted := isSorted_of_sort sorts
  isEvaluationOrder := by
    have small := size_of_sort room sorts
    exact ((isConstructed_of_sort room sorts).reachable.hasCurrentOrder small).isEvaluationOrder
      (isSorted_of_sort sorts)
  check_eq_ok := check_of_sort positive room sorts
  inputCount_eq := inputCount_of_sort sorts
  gateCount_eq := gateCount_of_sort sorts
  outputCount_eq := outputCount_of_sort sorts
  outputs := map_device_outputs_of_sort room sorts
  sinks := by
    have small := size_of_sort room sorts
    have wellFormed := (isConstructed_of_sort room sorts).reachable.wellFormed small
    refine ⟨?_, fun gate => mem_sinks_iff_not_reads wellFormed small.le⟩
    rw [toList_sinks wellFormed small.le]
    exact List.filter_sublist
  exists_outputValues values length := exists_outputValues_of_sort positive room sorts length
  exists_truthTable := exists_truthTable_of_sort positive room sorts few
  exists_statistics := exists_statistics_of_sort positive room sorts
  exists_outputFunctions := exists_outputFunctions_of_sort positive room sorts

/-- There is room for the decoders of up to thirty pins. -/
theorem mintermPlace_lt {width : Nat} (bound : width ≤ 30) :
    mintermPlace width (Pattern.count width) < UInt32.size := by
  have most : Pattern.count width ≤ 2 ^ 30 := Nat.pow_le_pow_right (by decide) bound
  show 2 * width + 2 * Pattern.count width < 2 ^ 32
  omega

/-- The decoder of up to thirty pins can be built, also one operation at a time. It is sorted and
checked, and each of its outputs is true at one assignment of the pins, another one for each. -/
theorem decoder_spec {width : Nat} (pins : 1 ≤ width ∧ width ≤ 30) :
    ∃ circuit, decoder width = .ok circuit ∧ decoderStepwise width = .ok circuit ∧
      circuit.IsDecoder width := by
  have room := mintermPlace_lt pins.2
  have size := size_decoderArrangement width (Pattern.count width)
  have wellFormed := (isConstructed_decoderArrangement room.le).reachable.wellFormed
    (size.symm ▸ room)
  obtain ⟨circuit, sorts⟩ := (sorts_iff_isAcyclic wellFormed (size.trans_le room.le)).mpr
    (isAcyclic_decoderArrangement room)
  have built : decoder width = .ok circuit := by
    rw [decoder, if_neg (by omega), foldl_addMinterm, sorts]
    rfl
  exact ⟨circuit, built, (decoderStepwise_eq room).trans built,
    isDecoder_of_sort pins.1 (by omega) room sorts⟩

/-- The decoder of two pins, of which the second one alone is true, has the output with number one
true. -/
theorem decoder_two :
    ∃ circuit, decoder 2 = .ok circuit ∧ circuit.gateCount = 6 ∧
      ∃ assigned, circuit.setInputs [false, true] = .ok assigned ∧
        assigned.outputValues = .ok [false, true, false, false] := by
  obtain ⟨circuit, built, _, decodes⟩ := decoder_spec (by decide : 1 ≤ 2 ∧ 2 ≤ 30)
  exact ⟨circuit, built, decodes.gateCount_eq, decodes.exists_outputValues [false, true] rfl⟩

end Circuit

end Combinational
