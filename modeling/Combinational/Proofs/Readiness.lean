/-
This file collects what the commands may ask of a circuit that was loaded.

Such a circuit is sorted, has between one and sixteen pins, lists all its devices, and has no gate
without a reference. So its statistics, the outputs for some values, the table of all assignments and
the output functions can all be computed. What the pins hold changes none of them, and no values that
the pins receive end this.
-/

import Combinational.Proofs.OutputFunctions
import Combinational.Proofs.Permutation

namespace Combinational

namespace Circuit

/-! ### Reports -/

/-- The report on the outputs for some values. -/
def report (circuit : Circuit) (values : List Bool) : String :=
  TruthTable.text { circuit.fullTable with rows := #[circuit.rowFor values] }

/-- What the pins held before does not matter to the table. -/
theorem fullTable_assigned (circuit : Circuit) (held : List Bool) :
    (circuit.assigned held).fullTable = circuit.fullTable :=
  fullTable_withPins ..

/-- What the pins held before does not matter to the report. -/
theorem report_assigned (circuit : Circuit) (held values : List Bool) :
    (circuit.assigned held).report values = circuit.report values := by
  have again : (circuit.assigned held).assigned values = circuit.assigned values :=
    assigned_withPins ..
  unfold report rowFor response
  rw [fullTable_assigned, again]

/-! ### Ready circuits -/

/-- A circuit of which everything may be asked. -/
structure IsReady (circuit : Circuit) : Prop where
  reachable : circuit.Reachable
  small : circuit.devices.size < UInt32.size
  isSorted : circuit.isSorted = true
  nots : circuit.HasConnectedNots
  pins : 1 ≤ circuit.inputCount ∧ circuit.inputCount < 64
  /-- Every device is in one of the lists. -/
  listed : circuit.devices.size ≤ circuit.inputCount + circuit.gateCount + circuit.outputCount

/-- A loaded circuit is ready, and its pins are false. -/
theorem isReady_of_load {text : String} {circuit : Circuit}
    (loads : (Lcf.load text).1 = .ok circuit) :
    circuit.IsReady ∧ circuit.assigned (List.replicate circuit.inputCount false) = circuit := by
  obtain ⟨_, read, counted, declared, assembles⟩ := Lcf.load_eq_ok_iff.mp loads
  obtain ⟨document, _, rfl⟩ := Lcf.read?_eq_some_iff.mp read
  have defined := counted.areDefined_iff.mpr declared
  have room := outputs_fit counted.small
  have assembled := isAssembled_of_assemble counted.bounded defined assembles
  have reachable := reachable_assemble counted.bounded defined room assembles
  have small := size_assemble counted.bounded defined room assembles
  have wellFormed := reachable.wellFormed small
  have connected := document.sources_ne_nil
  have described := describe_of_assemble counted.bounded defined assembles
  refine ⟨⟨reachable, small, assembled.isSorted, hasConnectedNots_of_connected ?_, ?_,
    assembled.size_devices.le⟩, ?_⟩
  · rw [← Lcf.sources_ne_nil_iff wellFormed small.le, described]
    exact connected
  · rw [(counts_of_assemble assembles).1]
    exact ⟨counted.inputs.1, counted.inputs.2.trans_lt (by decide)⟩
  · rw [assigned_replicate wellFormed small.le, ← assembled.heldValue_eq,
      withPins_heldValue small.le]

namespace IsReady

variable {circuit : Circuit} (ready : circuit.IsReady)

include ready

theorem wellFormed : circuit.WellFormed :=
  ready.reachable.wellFormed ready.small

/-- Whatever values its pins are given, the circuit stays ready. -/
theorem withPins (held : DeviceId → Bool) : (circuit.withPins held).IsReady where
  reachable := reachable_withPins ready.reachable ready.small held
  small := by
    rw [size_withPins]
    exact ready.small
  isSorted := ready.isSorted
  nots := hasConnectedNots_withPins ready.wellFormed ready.small.le ready.nots held
  pins := ready.pins
  listed := by
    rw [size_withPins]
    exact ready.listed

theorem assigned (values : List Bool) : (circuit.assigned values).IsReady :=
  ready.withPins _

theorem responds : circuit.Responds :=
  responds_of_isSorted ready.reachable ready.small ready.isSorted ready.nots

theorem exists_statistics : ∃ statistics, circuit.statistics = .ok statistics := by
  have ordered := (ready.reachable.hasCurrentOrder ready.small).isEvaluationOrder ready.isSorted
  obtain ⟨_, fits⟩ := Rule.exists_fits Rule.depth ready.wellFormed ready.small.le ordered
  have measured := depth_eq_ok fits ready.wellFormed ready.small.le ordered ready.isSorted
    ready.listed
  exact ⟨_, statistics_eq_ok ready.wellFormed ready.small.le measured⟩

theorem exists_outputFunctions : ∃ functions, circuit.outputFunctions.1 = .ok functions :=
  ⟨_, congrArg Prod.fst
    (outputFunctions_eq ready.reachable ready.small ready.isSorted ready.nots)⟩

/-- The table of all assignments, which leaves the pins true. -/
theorem evaluateAll_eq :
    circuit.evaluateAll = (.ok circuit.fullTable.text,
      circuit.assigned (List.replicate circuit.inputCount true)) := by
  have shows := evaluateAll_withPins ready.wellFormed ready.small.le ready.responds ready.pins
    circuit.heldValue
  rwa [withPins_heldValue ready.small.le, ← assigned_replicate ready.wellFormed ready.small.le]
    at shows

theorem setInputs_eq {values : List Bool} (length : values.length = circuit.inputCount) :
    circuit.setInputs values = .ok (circuit.assigned values) :=
  Circuit.setInputs_eq ready.wellFormed ready.small.le length

theorem evaluateOnce_eq {values : List Bool} (length : values.length = circuit.inputCount) :
    (circuit.assigned values).evaluateOnce = .ok (circuit.report values) := by
  have simulates := simulate_assigned ready.wellFormed ready.small.le ready.responds length
  unfold evaluateOnce
  rw [simulates]
  rfl

end IsReady

end Circuit

end Combinational
