/-
This file proves what the depth of a sorted circuit is computed from.

The depth of a gate follows from the depths of the references that evaluation may consult, so depths
solve equations in the same way as values do. The table of depths is filled in evaluation order. It
has an entry for each listed device, which is enough if every device of the arena is listed.
-/

import Combinational.Circuit.Statistics
import Combinational.Proofs.Equations

namespace Combinational

/-! ### The equations of the depths -/

namespace Rule

/-- What belongs to the sources that evaluation may consult. -/
def used {Value : Type} : GateKind → List Value → List Value
  | .not, sources => sources.take 1
  | .and, sources | .or, sources => sources

/-- The depths of the gates: one more than that of the deepest source that may be consulted. -/
def depth : Rule Nat where
  pin _ := 0
  gate kind sources := (used kind sources).foldl max 0 + 1

theorem map_usedReferences {Value : Type} (kind : GateKind) (references : List DeviceId)
    (valuation : DeviceId → Value) :
    (Device.gate kind references).usedReferences.map valuation =
      used kind (references.map valuation) := by
  cases kind with
  | and | or => rfl
  | not => exact List.map_take

end Rule

namespace Circuit

/-! ### Filling the table -/

theorem deepest_eq_ok {table : Array Nat} {depths : DeviceId → Nat} {sources : List DeviceId}
    (entries : ∀ source ∈ sources, table[source.index]? = some (depths source)) :
    deepest table sources = .ok ((sources.map depths).foldl max 0) := by
  refine bind_eq_ok_iff.mpr ⟨sources.map depths, mapM_eq_ok fun source member => ?_, rfl⟩
  rw [entries source member]

section Depths

variable {circuit : Circuit} {depths : DeviceId → Nat} (fits : Rule.depth.Fits circuit depths)

include fits

theorem settleDepth_eq_ok {id : DeviceId} {kind : GateKind} {references : List DeviceId}
    (member : id ∈ circuit.gates)
    (found : circuit.devices[id.index]? = some (.gate kind references)) {table : Array Nat}
    (inside : id.index < table.size)
    (entries : ∀ reference ∈ references, table[reference.index]? = some (depths reference)) :
    circuit.settleDepth table id = .ok (table.setIfInBounds id.index (depths id)) := by
  have used : ∀ reference ∈ (Device.gate kind references).usedReferences,
      table[reference.index]? = some (depths reference) := by
    obtain ⟨count, taken⟩ := (Device.gate kind references).usedReferences_eq_take
    rw [taken]
    exact fun reference consulted => entries reference (List.mem_of_mem_take consulted)
  have entered : depths id =
      ((Device.gate kind references).usedReferences.map depths).foldl max 0 + 1 := by
    rw [fits.gate id member kind references found, Rule.map_usedReferences]
    rfl
  unfold settleDepth
  rw [device_eq_ok_iff.mpr found, entered]
  refine bind_eq_ok_iff.mpr ⟨_, rfl, bind_eq_ok_iff.mpr ⟨_, deepest_eq_ok used, ?_⟩⟩
  rw [if_pos inside]
  rfl

variable (wellFormed : circuit.WellFormed) (small : circuit.devices.size ≤ UInt32.size)
  (ordered : circuit.IsEvaluationOrder circuit.order.toList) (sorted : circuit.isSorted = true)
  (listed : circuit.devices.size ≤
    circuit.inputCount + circuit.gateCount + circuit.outputCount)

include wellFormed small ordered sorted listed

theorem exists_depthTable : ∃ table, circuit.depthTable = .ok table ∧
    ∀ id, id ∈ circuit.inputs ∨ id ∈ circuit.gates → table[id.index]? = some (depths id) := by
  have follows := follows_schedule wellFormed small ordered
  rw [schedule, follows_append, follows_append, List.nil_append] at follows
  let room := circuit.inputCount + circuit.gateCount + circuit.outputCount
  have pins : ∀ id ∈ circuit.inputs.toList,
      (Array.replicate room 0)[id.index]? = some (depths id) := by
    intro id member
    rw [Array.mem_toList_iff] at member
    obtain ⟨position, here⟩ := Array.mem_iff_getElem?.mp member
    obtain ⟨_, found⟩ := (wellFormed.mem_inputs small).mp member
    obtain ⟨inside, _⟩ := Array.getElem?_eq_some_iff.mp found
    rw [fits.pin position id here, Array.getElem?_replicate, if_pos (inside.trans_le listed)]
    rfl
  obtain ⟨table, folds, entries⟩ := exists_foldlM_of_follows
    (fun table : Array Nat => table.size = room)
    (fun table id => table[id.index]? = some (depths id)) follows.1.2
    (fun table id size member entered => by
      have gate := (ordered.mem_iff id).mp member
      obtain ⟨kind, references, found⟩ := (wellFormed.mem_gates small).mp gate
      obtain ⟨inside, _⟩ := Array.getElem?_eq_some_iff.mp found
      rw [references_of_getElem? found] at entered
      have fitting : id.index < table.size := size ▸ inside.trans_le listed
      exact ⟨_, settleDepth_eq_ok fits gate found fitting entered,
        (Array.size_setIfInBounds ..).trans size,
        Array.getElem?_setIfInBounds_self_of_lt fitting, fun other different kept =>
          (getElem?_setIfInBounds_other different table _).trans kept⟩)
    Array.size_replicate pins
  refine ⟨table, ?_, fun id either => entries id ?_⟩
  · refine bind_eq_ok_iff.mpr ⟨circuit.order, ?_, folds⟩
    rw [evaluationOrder, if_pos sorted]
  · rw [List.mem_append, Array.mem_toList_iff, ordered.mem_iff]
    exact either

/-- The depth of a circuit is that of the deepest device that an output pin forwards. -/
theorem depth_eq_ok : circuit.depth =
    .ok (((circuit.outputs.toList.flatMap circuit.references).map depths).foldl max 0) := by
  obtain ⟨table, tabulated, entries⟩ :=
    exists_depthTable fits wellFormed small ordered sorted listed
  refine bind_eq_ok_iff.mpr ⟨table, tabulated, deepest_eq_ok fun source member => entries source ?_⟩
  obtain ⟨output, _, referenced⟩ := List.mem_flatMap.mp member
  exact wellFormed.mem_inputs_or_mem_gates small referenced

end Depths

end Circuit

end Combinational
