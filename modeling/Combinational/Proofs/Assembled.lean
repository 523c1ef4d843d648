/-
This file proves what circuit is assembled from statements.

If every source exists, the wired circuit has the description from which it was made, the gate with
a number being found in the arena behind the input pins. Its gates read each other, therefore, as
the statements say. So assembling fails exactly if every gate is read by some gate or if the
statements form a loop, and otherwise the arena has the input pins, the gates, and an output pin for
each gate that none reads.
-/

import Combinational.Proofs.Layout
import Combinational.Proofs.Loops
import Combinational.Proofs.Numbering

namespace Combinational

open Relation

/-! ### Sources and their places -/

namespace Source

/-- The place of the device that a source names. -/
def position (inputs : Nat) : Source → Nat
  | input number => number - 1
  | gate number => inputs + number - 1

theorem id_eq (inputs : Nat) (source : Source) :
    source.id inputs = .ofIndex (source.position inputs) := by
  cases source <;> rfl

theorem position_lt {inputs gates : Nat} {source : Source}
    (defined : source.isDefined inputs gates = true) :
    source.position inputs < inputs + gates := by
  cases source with
  | input number =>
    simp only [isDefined, Bool.and_eq_true, decide_eq_true_eq] at defined
    simp only [position]
    omega
  | gate number =>
    simp only [isDefined, Bool.and_eq_true, decide_eq_true_eq] at defined
    simp only [position]
    omega

theorem index_id {inputs gates : Nat} (small : inputs + gates ≤ UInt32.size) {source : Source}
    (defined : source.isDefined inputs gates = true) :
    (source.id inputs).index = source.position inputs := by
  rw [id_eq]
  exact DeviceId.index_ofIndex_of_lt (Nat.lt_of_lt_of_le (position_lt defined) small)

end Source

/-! ### The gates of the wired circuit -/

namespace Circuit

/-- The identifier of the gate with a number. -/
def gateId (inputs number : Nat) : DeviceId :=
  Source.id inputs (.gate number)

theorem gateCount_wired (inputs : Nat) (statements : List Statement) :
    (wired inputs statements).gateCount = statements.length := by
  rw [wired_eq]
  simp [gateCount, arrangement]

theorem inputCount_wired (inputs : Nat) (statements : List Statement) :
    (wired inputs statements).inputCount = inputs := by
  rw [wired_eq]
  simp [inputCount, arrangement]

theorem getElem?_wired_gate (inputs : Nat) (statements : List Statement) (position : Nat) :
    (wired inputs statements).devices[inputs + position]? = statements[position]?.map
      fun statement => .gate statement.kind (statement.sources.map (Source.id inputs)) := by
  rw [wired_eq, getElem?_arrangement_gate, List.getElem?_map, Option.map_map]
  rfl

/-- The pins and gates are found where the sources say. -/
theorem locate_wired {inputs : Nat} {statements : List Statement} {source : Source}
    (defined : source.isDefined inputs statements.length = true) :
    (wired inputs statements).locate source = some (source.id inputs) := by
  rw [wired_eq]
  match source, defined with
  | .input (position + 1), defined =>
    have inside : position < inputs := by
      simpa [Source.isDefined, Nat.succ_le_iff] using defined
    simp [locate, arrangement, Source.id, inside]
  | .gate (position + 1), defined =>
    have inside : position < statements.length := (Source.isDefined_gate.mp defined).2
    simp [locate, arrangement, Source.id, inside]

section Wired

variable {inputs : Nat} {statements : List Statement}
  (small : inputs + statements.length < UInt32.size)
  (defined : Statement.AreDefined inputs statements)

include small defined

theorem reachable_wired : (wired inputs statements).Reachable := by
  rw [wired_eq]
  refine reachable_arrangement (by rw [List.length_map]; exact small.le) ?_
  intro gate member reference listed
  obtain ⟨statement, statementMember, rfl⟩ := List.mem_map.mp member
  obtain ⟨source, sourceMember, rfl⟩ := List.mem_map.mp listed
  have exists_source := defined statement statementMember source sourceMember
  rw [List.length_map, Source.index_id small.le exists_source]
  exact Source.position_lt exists_source

theorem wellFormed_wired : (wired inputs statements).WellFormed :=
  (reachable_wired small defined).wellFormed (by rw [size_wired]; exact small)

omit defined in
theorem size_wired_le : (wired inputs statements).devices.size ≤ UInt32.size := by
  rw [size_wired]
  exact small.le

/-- Each statement is found again in the gate with its number. -/
theorem getElem?_describe_wired {position : Nat} (inside : position < statements.length) :
    (Lcf.describe (wired inputs statements)).statements[position]? = some statements[position] := by
  have wellFormed := wellFormed_wired small defined
  have bounded := size_wired_le small
  have numbered : (Source.gate (position + 1)).isDefined inputs statements.length = true :=
    Source.isDefined_gate.mpr ⟨Nat.le_add_left .., inside⟩
  refine (Lcf.getElem?_statements_eq_some_iff wellFormed bounded).mpr
    ⟨gateId inputs (position + 1), statements[position].sources.map (Source.id inputs),
      locate_wired numbered, ?_, ?_⟩
  · rw [gateId, Source.index_id small.le numbered, Source.position, ← Nat.add_assoc,
      Nat.add_sub_cancel, getElem?_wired_gate, List.getElem?_eq_getElem inside]
    rfl
  · rw [List.map_map]
    refine List.map_congr_left fun source listed => ?_
    have located := locate_wired (defined _ (List.getElem_mem inside) source listed)
    exact (Lcf.source?_eq_some_iff wellFormed bounded).mpr located

/-- The wired circuit has the description from which it was made. -/
theorem describe_wired : Lcf.describe (wired inputs statements) =
    { inputs, gates := statements.length, statements } := by
  have length := Lcf.length_statements (wellFormed_wired small defined) (size_wired_le small)
  rw [gateCount_wired] at length
  have same : (Lcf.describe (wired inputs statements)).statements = statements := by
    refine List.ext_getElem length fun position inside insideToo => ?_
    have given := getElem?_describe_wired small defined insideToo
    exact (List.getElem?_eq_some_iff.mp given).2
  show (⟨(wired inputs statements).inputCount, (wired inputs statements).gateCount,
    (Lcf.describe (wired inputs statements)).statements⟩ : Lcf.Description) = _
  rw [inputCount_wired, gateCount_wired, same]

theorem isAcyclic_wired_iff :
    (wired inputs statements).IsAcyclic ↔ Statement.IsAcyclic statements := by
  have acyclic := Lcf.isAcyclic_describe_iff (wellFormed_wired small defined) (size_wired_le small)
  rw [describe_wired small defined] at acyclic
  exact acyclic.symm

theorem loop_of_wired {gate : DeviceId} {number : Nat}
    (numbered : (wired inputs statements).gateNumber? gate = some number)
    (loop : TransGen (wired inputs statements).Reads gate gate) :
    TransGen (Statement.Reads statements) number number := by
  have chain := Lcf.transGen_gateNumber? (wellFormed_wired small defined) (size_wired_le small)
    numbered numbered loop
  rwa [describe_wired small defined] at chain

theorem sinks_wired : (wired inputs statements).sinks =
    ((Statement.unread statements).map (gateId inputs)).toArray := by
  have sinks := Lcf.toList_sinks_eq (wellFormed_wired small defined) (size_wired_le small)
  rw [describe_wired small defined] at sinks
  rw [← Array.toList_inj, sinks]
  refine List.map_congr_left fun number unread => gateOf_of_locate (locate_wired ?_)
  exact Source.isDefined_gate.mpr (Statement.mem_unread_iff.mp unread).1

end Wired

/-! ### The assembled circuit -/

/-- The arena of the circuit holds the input pins, the gates of the statements, and an output pin
for each gate that no gate reads; and the gates are sorted. -/
structure IsAssembled (inputs : Nat) (statements : List Statement) (circuit : Circuit) : Prop where
  devices_eq : circuit.devices.toList = List.replicate inputs (.inputPin false) ++
    (statements.map fun statement =>
      .gate statement.kind (statement.sources.map (Source.id inputs))) ++
    (Statement.unread statements).map fun number => .outputPin [Source.id inputs (.gate number)]
  inputs_eq : circuit.inputs.toList = (List.range inputs).map DeviceId.ofIndex
  gates_eq : circuit.gates.toList =
    (List.range' inputs statements.length).map DeviceId.ofIndex
  outputs_eq : circuit.outputs.toList =
    (List.range' (inputs + statements.length) (Statement.unread statements).length).map
      DeviceId.ofIndex
  isSorted : circuit.isSorted = true
  isEvaluationOrder : circuit.IsEvaluationOrder circuit.order.toList

namespace IsAssembled

variable {inputs : Nat} {statements : List Statement} {circuit : Circuit}
  (assembled : IsAssembled inputs statements circuit)

include assembled

/-- The input pins are false. -/
theorem eq_false_of_inputPin {position : Nat} {value : Bool}
    (found : circuit.devices[position]? = some (.inputPin value)) : value = false := by
  have member := Array.mem_toList_iff.mpr (Array.mem_of_getElem? found)
  rw [assembled.devices_eq, List.mem_append, List.mem_append, List.mem_map, List.mem_map] at member
  rcases member with (pin | ⟨_, _, gate⟩) | ⟨_, _, output⟩
  · exact Device.inputPin.inj (List.eq_of_mem_replicate pin)
  · cases gate
  · cases output

theorem heldValue_eq : circuit.heldValue = fun _ => false := by
  funext id
  unfold heldValue
  split
  · next found => exact assembled.eq_false_of_inputPin found
  · rfl

theorem device_of_mem_inputs (wellFormed : circuit.WellFormed)
    (small : circuit.devices.size ≤ UInt32.size) {pin : DeviceId} (member : pin ∈ circuit.inputs) :
    circuit.device pin = .ok (.inputPin false) := by
  obtain ⟨value, found⟩ := (wellFormed.mem_inputs small).mp member
  rw [device_eq_ok_iff, found, assembled.eq_false_of_inputPin found]

/-- The pins and gates are found where the sources say. -/
theorem locate_eq {source : Source} (defined : source.isDefined inputs statements.length = true) :
    circuit.locate source = some (source.id inputs) := by
  match source, defined with
  | .input (position + 1), defined =>
    have inside : position < inputs := by
      simpa [Source.isDefined, Nat.succ_le_iff] using defined
    rw [locate, ← Array.getElem?_toList, assembled.inputs_eq]
    simp [Source.id, inside]
  | .gate (position + 1), defined =>
    have inside : position < statements.length := (Source.isDefined_gate.mp defined).2
    rw [locate, ← Array.getElem?_toList, assembled.gates_eq]
    simp [Source.id, inside]

theorem locate_gate {number : Nat} (numbered : 1 ≤ number ∧ number ≤ statements.length) :
    circuit.locate (.gate number) = some (gateId inputs number) :=
  assembled.locate_eq (Source.isDefined_gate.mpr numbered)

theorem getElem?_gate {position : Nat} {statement : Statement}
    (given : statements[position]? = some statement) :
    circuit.devices[inputs + position]? =
      some (.gate statement.kind (statement.sources.map (Source.id inputs))) := by
  have inside := (List.getElem?_eq_some_iff.mp given).1
  rw [← Array.getElem?_toList, assembled.devices_eq, List.getElem?_append_left (by simp [inside]),
    List.getElem?_append_right (by simp)]
  simp [given]

theorem getElem?_output {position number : Nat}
    (listed : (Statement.unread statements)[position]? = some number) :
    circuit.devices[inputs + statements.length + position]? =
      some (.outputPin [gateId inputs number]) := by
  rw [← Array.getElem?_toList, assembled.devices_eq, List.getElem?_append_right (by simp)]
  simp [listed, gateId]

/-- Each output pin forwards the next gate that no gate reads. -/
theorem map_device_outputs (small : circuit.devices.size ≤ UInt32.size) :
    circuit.outputs.toList.map circuit.device =
      (Statement.unread statements).map fun number => .ok (.outputPin [gateId inputs number]) := by
  rw [assembled.outputs_eq, List.map_map]
  refine List.ext_getElem (by simp) fun position _ inside => ?_
  rw [List.length_map] at inside
  have found := assembled.getElem?_output (List.getElem?_eq_getElem inside)
  have bounded := (Array.getElem?_eq_some_iff.mp found).1
  simp only [List.getElem_map, List.getElem_range', Function.comp_apply, Nat.one_mul]
  rw [device_eq_ok_iff, DeviceId.index_ofIndex_of_lt (bounded.trans_le small), found]

/-- Every device of the arena is listed. -/
theorem size_devices : circuit.devices.size =
    circuit.inputCount + circuit.gateCount + circuit.outputCount := by
  rw [inputCount, gateCount, outputCount, ← Array.length_toList, ← Array.length_toList,
    ← Array.length_toList, ← Array.length_toList, assembled.devices_eq, assembled.inputs_eq,
    assembled.gates_eq, assembled.outputs_eq]
  simp [Nat.add_assoc]

/-- The gates that no gate reads drive the output pins, and nothing else does. -/
theorem flatMap_references_outputs (small : circuit.devices.size ≤ UInt32.size) :
    circuit.outputs.toList.flatMap circuit.references =
      (Statement.unread statements).map (gateId inputs) := by
  have references : circuit.references =
      (fun found => (found.toOption.map Device.references).getD []) ∘ circuit.device := by
    funext id
    show circuit.references id = ((circuit.device id).toOption.map Device.references).getD []
    unfold Circuit.references Circuit.device
    cases circuit.devices[id.index]? <;> rfl
  have forwarded := congrArg
    (List.flatMap fun found => (found.toOption.map Device.references).getD [])
    (assembled.map_device_outputs small)
  rw [List.flatMap_map, List.flatMap_map] at forwarded
  rw [references, List.map_eq_flatMap]
  exact forwarded

end IsAssembled

section Assemble

variable {inputs : Nat} {statements : List Statement}
  (small : inputs + statements.length < UInt32.size)
  (defined : Statement.AreDefined inputs statements)

include small defined

theorem isEmpty_sinks_wired :
    (wired inputs statements).sinks.isEmpty = true ↔ Statement.unread statements = [] := by
  rw [sinks_wired small defined, List.isEmpty_toArray, List.isEmpty_iff, List.map_eq_nil_iff]

theorem assemble_of_unread_eq_nil (none : Statement.unread statements = []) :
    assemble inputs statements = .error .noOutput := by
  unfold assemble
  exact if_pos ((isEmpty_sinks_wired small defined).mpr none)

theorem assemble_of_unread_ne_nil (some : Statement.unread statements ≠ []) :
    assemble inputs statements =
      (wired inputs statements).sort.map (·.expose (wired inputs statements).sinks) := by
  unfold assemble
  exact if_neg (mt (isEmpty_sinks_wired small defined).mp some)

/-- A loop is reported with the number of a gate on it. -/
theorem assemble_of_loop (some : Statement.unread statements ≠ [])
    (loop : ¬ Statement.IsAcyclic statements) :
    ∃ number, TransGen (Statement.Reads statements) number number ∧
      assemble inputs statements = .error (.combinationalLoop number) := by
  have wellFormed := wellFormed_wired small defined
  have bounded := size_wired_le small
  rw [assemble_of_unread_ne_nil small defined some]
  cases sorts : (wired inputs statements).sort with
  | ok sorted =>
    have acyclic := (sorts_iff_isAcyclic wellFormed bounded).mp ⟨sorted, sorts⟩
    exact absurd ((isAcyclic_wired_iff small defined).mp acyclic) loop
  | error error =>
    obtain ⟨gate, number, rfl, _, numbered, chain⟩ := sort_eq_error wellFormed bounded sorts
    exact ⟨number, loop_of_wired small defined numbered chain, rfl⟩

theorem isAssembled_expose {sorted : Circuit}
    (sorts : (wired inputs statements).sort = .ok sorted) :
    IsAssembled inputs statements (sorted.expose (wired inputs statements).sinks) := by
  have wellFormed := wellFormed_wired small defined
  have bounded := size_wired_le small
  have ordered := isEvaluationOrder_of_sort wellFormed bounded sorts
  have sinks := sinks_wired small defined
  obtain ⟨complete, same⟩ := sort_eq_ok_iff.mp sorts
  have devices : sorted.devices = (wired inputs statements).devices := by rw [same]
  have gates : sorted.gates = (wired inputs statements).gates := by rw [same]
  have references : ∀ id, sorted.references id = (wired inputs statements).references id := by
    rw [same]
    exact fun _ => rfl
  rw [sinks]
  refine ⟨?_, ?_, ?_, ?_, ?_, ?_⟩
  · rw [expose_eq, same, wired_eq]
    simp [arrangement, wire, gateId, Function.comp_def]
  · rw [expose_eq, same, wired_eq]
    rfl
  · rw [expose_eq, same, wired_eq]
    simp [arrangement]
  · rw [expose_eq, same, wired_eq]
    simp [arrangement]
  · have isSorted := isSorted_of_sort sorts
    rw [expose_eq]
    exact isSorted
  · have order : (sorted.expose
        ((Statement.unread statements).map (gateId inputs)).toArray).order = sorted.order := by
      rw [expose_eq]
    rw [order]
    refine ordered.congr (by rw [expose_eq]; exact gates) fun gate member => ?_
    have inside := wellFormed.index_lt_of_mem_gates bounded member
    rw [← devices] at inside
    rw [references_expose inside, references]

theorem assemble_of_isAcyclic (some : Statement.unread statements ≠ [])
    (acyclic : Statement.IsAcyclic statements) :
    ∃ circuit, assemble inputs statements = .ok circuit ∧
      IsAssembled inputs statements circuit := by
  obtain ⟨sorted, sorts⟩ :=
    (sorts_iff_isAcyclic (wellFormed_wired small defined) (size_wired_le small)).mpr
      ((isAcyclic_wired_iff small defined).mpr acyclic)
  refine ⟨_, ?_, isAssembled_expose small defined sorts⟩
  rw [assemble_of_unread_ne_nil small defined some, sorts]
  rfl

theorem assemble_eq_ok_iff {circuit : Circuit} : assemble inputs statements = .ok circuit ↔
    Statement.unread statements ≠ [] ∧ ∃ sorted, (wired inputs statements).sort = .ok sorted ∧
      circuit = sorted.expose (wired inputs statements).sinks := by
  by_cases none : Statement.unread statements = []
  · rw [assemble_of_unread_eq_nil small defined none]
    simp [none]
  · rw [assemble_of_unread_ne_nil small defined none, and_iff_right none]
    cases (wired inputs statements).sort with
    | error error => simp [Except.map]
    | ok sorted => simp [Except.map, eq_comm]

theorem isAssembled_of_assemble {circuit : Circuit}
    (assembles : assemble inputs statements = .ok circuit) :
    IsAssembled inputs statements circuit := by
  obtain ⟨_, sorted, sorts, rfl⟩ := (assemble_eq_ok_iff small defined).mp assembles
  exact isAssembled_expose small defined sorts

/-- The assembled circuit still has the description from which it was made. -/
theorem describe_of_assemble {circuit : Circuit}
    (assembles : assemble inputs statements = .ok circuit) :
    Lcf.describe circuit = { inputs, gates := statements.length, statements } := by
  have wellFormed := wellFormed_wired small defined
  obtain ⟨_, sorted, sorts, rfl⟩ := (assemble_eq_ok_iff small defined).mp assembles
  have same := (sort_eq_ok_iff.mp sorts).2
  rw [← describe_wired small defined, sinks_wired small defined]
  refine Lcf.describe_congr (by rw [expose_eq, same]) (by rw [expose_eq, same])
    fun gate member => ?_
  have inside := wellFormed.index_lt_of_mem_gates (size_wired_le small) member
  rw [getElem?_expose (by rw [same]; exact inside), same]

omit small defined in
/-- The counts of an assembled circuit are those that were asked for, whatever their sizes. -/
theorem counts_of_assemble {circuit : Circuit}
    (assembles : assemble inputs statements = .ok circuit) :
    circuit.inputCount = inputs ∧ circuit.gateCount = statements.length := by
  unfold assemble at assembles
  simp only at assembles
  split at assembles
  · cases assembles
  · cases sorts : (wired inputs statements).sort with
    | error error =>
      rw [sorts] at assembles
      cases assembles
    | ok sorted =>
      rw [sorts] at assembles
      have whole : sorted.expose (wired inputs statements).sinks = circuit :=
        Except.ok.inj assembles
      have same := (sort_eq_ok_iff.mp sorts).2
      have exposed := expose_eq sorted (wired inputs statements).sinks.toList
      rw [Array.toArray_toList] at exposed
      rw [← whole, exposed, same]
      exact ⟨inputCount_wired inputs statements, gateCount_wired inputs statements⟩

omit small defined in
theorem length_unread_le (statements : List Statement) :
    (Statement.unread statements).length ≤ statements.length := by
  unfold Statement.unread
  exact Nat.le_trans (List.length_filter_le _ _) (Nat.le_of_eq List.length_range')

omit small defined in
/-- There is room for the output pins if there is room for one per gate. -/
theorem outputs_fit (room : inputs + statements.length + statements.length < UInt32.size) :
    inputs + statements.length + (Statement.unread statements).length < UInt32.size :=
  Nat.lt_of_le_of_lt (Nat.add_le_add_left (length_unread_le statements) _) room

/-- There is room for the output pins, and the sinks may drive them. -/
theorem sinks_of_wired
    (room : inputs + statements.length + (Statement.unread statements).length < UInt32.size) :
    (wired inputs statements).devices.size + (wired inputs statements).sinks.toList.length <
        UInt32.size ∧
      ∀ sink ∈ (wired inputs statements).sinks.toList,
        MayDrive (wired inputs statements).devices sink := by
  rw [sinks_wired small defined]
  constructor
  · rw [size_wired, List.length_map]
    exact room
  · intro sink listed
    obtain ⟨number, unread, rfl⟩ := List.mem_map.mp listed
    have numbered : (Source.gate number).isDefined inputs statements.length = true :=
      Source.isDefined_gate.mpr (Statement.mem_unread_iff.mp unread).1
    rw [wired_eq, mayDrive_arrangement, List.length_map, gateId,
      Source.index_id small.le numbered]
    exact Source.position_lt numbered

theorem sinks_of_sort {sorted : Circuit}
    (room : inputs + statements.length + (Statement.unread statements).length < UInt32.size)
    (sorts : (wired inputs statements).sort = .ok sorted) :
    sorted.devices.size + (wired inputs statements).sinks.toList.length < UInt32.size ∧
      ∀ sink ∈ (wired inputs statements).sinks.toList, MayDrive sorted.devices sink := by
  have devices : sorted.devices = (wired inputs statements).devices := by
    rw [(sort_eq_ok_iff.mp sorts).2]
  rw [devices]
  exact sinks_of_wired small defined room

theorem size_assemble {circuit : Circuit}
    (room : inputs + statements.length + (Statement.unread statements).length < UInt32.size)
    (assembles : assemble inputs statements = .ok circuit) :
    circuit.devices.size < UInt32.size := by
  obtain ⟨_, sorted, sorts, rfl⟩ := (assemble_eq_ok_iff small defined).mp assembles
  exact (size_expose sorted _).trans_lt (sinks_of_sort small defined room sorts).1

/-- Assembling takes no step that the operations could not take. -/
theorem reachable_assemble {circuit : Circuit}
    (room : inputs + statements.length + (Statement.unread statements).length < UInt32.size)
    (assembles : assemble inputs statements = .ok circuit) : circuit.Reachable := by
  obtain ⟨_, sorted, sorts, rfl⟩ := (assemble_eq_ok_iff small defined).mp assembles
  have ready := sinks_of_sort small defined room sorts
  exact reachable_expose (reachable_sort (reachable_wired small defined) sorts) ready.1.le ready.2

theorem wellFormed_assemble {circuit : Circuit}
    (room : inputs + statements.length + (Statement.unread statements).length < UInt32.size)
    (assembles : assemble inputs statements = .ok circuit) :
    circuit.WellFormed ∧ circuit.devices.size ≤ UInt32.size := by
  have bounded := size_assemble small defined room assembles
  exact ⟨(reachable_assemble small defined room assembles).wellFormed bounded, bounded.le⟩

/-- The output pins forward the sinks, in order. -/
theorem map_device_outputs_of_assemble {circuit : Circuit}
    (room : inputs + statements.length + (Statement.unread statements).length < UInt32.size)
    (assembles : assemble inputs statements = .ok circuit) :
    circuit.outputs.toList.map circuit.device =
      circuit.sinks.toList.map fun sink => .ok (.outputPin [sink]) := by
  have assembled := isAssembled_of_assemble small defined assembles
  obtain ⟨wellFormed, bounded⟩ := wellFormed_assemble small defined room assembles
  rw [assembled.map_device_outputs bounded, Lcf.toList_sinks_eq wellFormed bounded,
    describe_of_assemble small defined assembles, List.map_map]
  refine List.map_congr_left fun number unread => ?_
  have located := assembled.locate_gate (Statement.mem_unread_iff.mp unread).1
  rw [Function.comp_apply, gateOf_of_locate located]

end Assemble

end Circuit

end Combinational
