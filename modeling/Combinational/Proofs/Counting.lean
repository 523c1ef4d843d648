/-
This file proves that the statistics count gates in any order.

Each gate is counted by its kind and its number of references, one after the other. Counting one
gate before another gives the same counts as counting it after, so the counts depend only on which
statements there are.
-/

import Combinational.Circuit.Statistics
import Combinational.Proofs.Moves
import Combinational.Proofs.Numbering
import Mathlib.Data.List.Perm.Basic

namespace Combinational

/-! ### Histograms -/

namespace Histogram

/-- How many things of a size there are. -/
def count (histogram : Histogram) (size : Nat) : Nat :=
  histogram.getD size 0

/-- Growing a histogram adds sizes that nothing has. -/
theorem getD_append_replicate (histogram : Histogram) (added size : Nat) :
    (histogram ++ Array.replicate added 0).getD size 0 = histogram.getD size 0 := by
  rw [Array.getD_eq_getD_getElem?, Array.getD_eq_getD_getElem?]
  by_cases inside : size < histogram.size
  · rw [Array.getElem?_append_left inside]
  · rw [Array.getElem?_append_right (by omega), Array.getElem?_replicate,
      Array.getElem?_eq_none (by omega)]
    split <;> rfl

theorem count_record (histogram : Histogram) (recorded size : Nat) :
    (histogram.record recorded).count size =
      histogram.count size + if recorded = size then 1 else 0 := by
  unfold count record
  rw [← getD_append_replicate histogram (recorded + 1 - histogram.size) size,
    Array.getD_eq_getD_getElem?, Array.getD_eq_getD_getElem?, Array.getElem?_modify]
  by_cases same : recorded = size
  · have inside : size <
        (histogram ++ Array.replicate (recorded + 1 - histogram.size) 0).size := by
      rw [Array.size_append, Array.size_replicate]
      omega
    rw [if_pos same, if_pos same, Array.getElem?_eq_getElem inside]
    rfl
  · rw [if_neg same, if_neg same]
    rfl

theorem ext_count {first second : Histogram} (sizes : first.size = second.size)
    (counts : ∀ size, first.count size = second.count size) : first = second := by
  refine Array.ext sizes fun size inside insideToo => ?_
  have same := counts size
  rwa [count, count, Array.getD_eq_getD_getElem?, Array.getD_eq_getD_getElem?,
    Array.getElem?_eq_getElem inside, Array.getElem?_eq_getElem insideToo] at same

theorem record_comm (histogram : Histogram) (first second : Nat) :
    (histogram.record first).record second = (histogram.record second).record first := by
  refine ext_count ?_ fun size => ?_
  · simp only [size_record]
    omega
  · simp only [count_record]
    omega

end Histogram

/-! ### The counts of some statements -/

namespace Statistics

/-- The number of references of a gate is all that is counted of them. -/
theorem record_gate_congr (statistics : Statistics) (kind : GateKind)
    {first second : List DeviceId} (lengths : first.length = second.length) :
    statistics.record (.gate kind first) = statistics.record (.gate kind second) := by
  cases kind with
  | and | or => simp only [record, lengths]
  | not => rfl

/-- Counts the gate that a statement defines, whatever devices its sources are. -/
def recordStatement (statistics : Statistics) (statement : Statement) : Statistics :=
  statistics.record
    (.gate statement.kind (List.replicate statement.sources.length (.ofIndex 0)))

theorem recordStatement_comm (statistics : Statistics) (first second : Statement) :
    (statistics.recordStatement first).recordStatement second =
      (statistics.recordStatement second).recordStatement first := by
  unfold recordStatement
  cases first.kind <;> cases second.kind <;> simp only [record, Histogram.record_comm]

/-- The order of the statements does not matter to the counts. -/
theorem foldl_recordStatement_of_perm {first second : List Statement} (perm : first.Perm second)
    (statistics : Statistics) :
    first.foldl recordStatement statistics = second.foldl recordStatement statistics :=
  perm.foldl_eq' (fun first _ second _ statistics =>
    recordStatement_comm statistics first second) statistics

end Statistics

/-! ### The counts of a circuit -/

namespace Circuit

variable {circuit : Circuit} (wellFormed : circuit.WellFormed)
  (small : circuit.devices.size ≤ UInt32.size)

include wellFormed small

theorem record_eq_recordStatement {gate : DeviceId} {kind : GateKind} {references : List DeviceId}
    (found : circuit.devices[gate.index]? = some (.gate kind references)) {statement : Statement}
    (defines : Lcf.statement? circuit gate = some statement) (statistics : Statistics) :
    statistics.record (.gate kind references) = statistics.recordStatement statement := by
  rw [Lcf.statement?_of_getElem? found] at defines
  obtain rfl := Option.some.inj defines
  have lengths := congrArg List.length (Lcf.map_some_sources wellFormed small gate)
  rw [references_of_getElem? found, List.length_map, List.length_map] at lengths
  exact statistics.record_gate_congr kind (lengths.symm.trans List.length_replicate.symm)

/-- The gates of a circuit are counted as the statements of its description are. -/
theorem exists_devices : ∃ devices, circuit.gates.toList.mapM circuit.device = .ok devices ∧
    ∀ statistics, devices.foldl Statistics.record statistics =
      (Lcf.describe circuit).statements.foldl Statistics.recordStatement statistics := by
  have all : ∀ gate ∈ circuit.gates.toList, gate ∈ circuit.gates :=
    fun _ member => Array.mem_toList_iff.mp member
  have defined := Lcf.map_some_statements wellFormed small
  generalize (Lcf.describe circuit).statements = statements at defined ⊢
  generalize circuit.gates.toList = gates at all defined ⊢
  induction gates generalizing statements with
  | nil =>
    obtain rfl := List.map_eq_nil_iff.mp defined
    exact ⟨[], rfl, fun _ => rfl⟩
  | cons gate gates inductionHypothesis =>
    obtain ⟨statement, statements, rfl, defines, others⟩ := List.map_eq_cons_iff.mp defined
    obtain ⟨devices, looked, counts⟩ := inductionHypothesis statements
      (fun other member => all other (List.mem_cons_of_mem gate member)) others
    obtain ⟨kind, references, found⟩ := (wellFormed.mem_gates small).mp (all gate
      List.mem_cons_self)
    refine ⟨.gate kind references :: devices, ?_, fun statistics => ?_⟩
    · rw [List.mapM_cons, device_eq_ok_iff.mpr found, looked]
      rfl
    · rw [List.foldl_cons, List.foldl_cons, counts,
        record_eq_recordStatement wellFormed small found defines.symm]

theorem statistics_eq_ok {depth : Nat} (measured : circuit.depth = .ok depth) :
    circuit.statistics = .ok { (Lcf.describe circuit).statements.foldl Statistics.recordStatement
      { inputs := circuit.inputCount, outputs := circuit.outputCount } with depth } := by
  obtain ⟨devices, looked, counts⟩ := exists_devices wellFormed small
  refine bind_eq_ok_iff.mpr ⟨devices, looked, bind_eq_ok_iff.mpr ⟨depth, measured, ?_⟩⟩
  rw [← counts]
  rfl

end Circuit

end Combinational
