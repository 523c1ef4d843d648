/-
This file proves that the simulation of one assignment agrees with the table of all of them.

The table has a row for every pattern, at the index that the pattern denotes. Setting the pins to a
pattern and simulating the circuit gives that row, and the report of it ends with the line that the
row has in the report of the table. Neither depends on what the pins held before, and the table
leaves the circuit as it was, up to its pins, which are all true.
-/

import Combinational.Proofs.Sweeps
import Combinational.Proofs.TableText

namespace Combinational

namespace Circuit

/-! ### The rows of the table -/

/-- The table with the row of every pattern. -/
def fullTable (circuit : Circuit) : TruthTable where
  inputCount := circuit.inputCount
  outputCount := circuit.outputCount
  rows := ((List.range (Pattern.count circuit.inputCount)).map fun number =>
    circuit.rowFor (Pattern.bigEndian circuit.inputCount number)).toArray

theorem size_rows_fullTable (circuit : Circuit) :
    circuit.fullTable.rows.size = Pattern.count circuit.inputCount := by
  rw [fullTable, List.size_toArray, List.length_map, List.length_range]

theorem getElem?_rows_fullTable (circuit : Circuit) {index : Nat}
    (inside : index < Pattern.count circuit.inputCount) :
    circuit.fullTable.rows[index]? =
      some (circuit.rowFor (Pattern.bigEndian circuit.inputCount index)) := by
  rw [fullTable, List.getElem?_toArray, List.getElem?_map, List.getElem?_range inside]
  rfl

/-- The row of some values has the index that they denote. -/
theorem row_fullTable (circuit : Circuit) {values : List Bool}
    (length : values.length = circuit.inputCount) :
    circuit.fullTable.row (Pattern.number values) = .ok (circuit.rowFor values) := by
  have inside := Pattern.number_lt values
  rw [length] at inside
  rw [TruthTable.row_eq_ok_iff, circuit.getElem?_rows_fullTable inside, ← length,
    Pattern.bigEndian_number]

/-- What the pins held does not matter to the table. -/
theorem fullTable_withPins (circuit : Circuit) (held : DeviceId → Bool) :
    (circuit.withPins held).fullTable = circuit.fullTable := by
  unfold fullTable rowFor response
  simp only [assigned_withPins]
  rfl

section Responding

variable {circuit : Circuit} (wellFormed : circuit.WellFormed)
  (small : circuit.devices.size ≤ UInt32.size) (responds : circuit.Responds)

include wellFormed small responds

theorem truthTable_withPins (pins : 1 ≤ circuit.inputCount ∧ circuit.inputCount < 64)
    (held : DeviceId → Bool) : (circuit.withPins held).truthTable =
      (.ok circuit.fullTable, circuit.withPins fun _ => true) := by
  have rows := sweepAssignments_withPins wellFormed small responds pins Array.push #[] held
  rw [List.foldl_push_eq_append] at rows
  unfold truthTable
  rw [rows]
  simp only [Except.map, fullTable, Array.empty_append, List.map_id_fun', id]
  rfl

theorem truthTable_eq_fullTable (pins : 1 ≤ circuit.inputCount ∧ circuit.inputCount < 64) :
    circuit.truthTable = (.ok circuit.fullTable, circuit.withPins fun _ => true) := by
  have table := truthTable_withPins wellFormed small responds pins circuit.heldValue
  rwa [withPins_heldValue small] at table

/-- The table is shown whatever the pins hold, and leaves them true. -/
theorem evaluateAll_withPins (pins : 1 ≤ circuit.inputCount ∧ circuit.inputCount < 64)
    (held : DeviceId → Bool) : (circuit.withPins held).evaluateAll =
      (.ok circuit.fullTable.text, circuit.withPins fun _ => true) := by
  unfold evaluateAll
  rw [truthTable_withPins wellFormed small responds pins held]
  rfl

theorem simulate_assigned {values : List Bool} (length : values.length = circuit.inputCount) :
    (circuit.assigned values).simulate =
      .ok { circuit.fullTable with rows := #[circuit.rowFor values] } := by
  unfold simulate
  rw [responds values length, inputValues_assigned wellFormed small length]
  rfl

end Responding

/-! ### Main statement -/

/-- What the simulations of a circuit find and leave behind, when a table is the one of all its
assignments. -/
structure HasTable (circuit : Circuit) (table : TruthTable) : Prop where
  inputCount_eq : table.inputCount = circuit.inputCount
  outputCount_eq : table.outputCount = circuit.outputCount
  size_rows : table.rows.size = Pattern.count circuit.inputCount
  /-- The outputs of the row at an index solve the equations of the devices for its inputs, which
  are the binary form of the index. -/
  row_solves : ∀ (index : Nat) (row : Row), table.rows[index]? = some row →
    row.inputs = Pattern.bigEndian circuit.inputCount index ∧
    ∃ valuation, circuit.Solves row.inputs valuation ∧
      row.outputs = circuit.outputs.toList.map valuation
  truthTable_eq : circuit.truthTable = (.ok table, circuit.withPins fun _ => true)
  evaluateAll_eq : circuit.evaluateAll = (.ok table.text, circuit.withPins fun _ => true)
  inputValues_eq :
    (circuit.withPins fun _ => true).inputValues = List.replicate circuit.inputCount true
  /-- For every assignment there is a row, at the index that the assignment denotes. It is what the
  simulation of the assignment gives, and its line ends the report. -/
  single : ∀ values : List Bool, values.length = circuit.inputCount → ∃ row assigned report,
    table.row (Pattern.number values) = .ok row ∧
    circuit.setInputs values = .ok assigned ∧
    assigned.simulate = .ok { table with rows := #[row] } ∧
    assigned.evaluateOnce = .ok report ∧
    (Lcf.lines report.toList).getLast? = some row.text.toList ∧
    (Lcf.lines table.text.toList)[3 + Pattern.number values]? = some row.text.toList

theorem hasTable_fullTable {circuit : Circuit} (reachable : circuit.Reachable)
    (small : circuit.devices.size < UInt32.size) (sorted : circuit.isSorted = true)
    (nots : circuit.HasConnectedNots)
    (pins : 1 ≤ circuit.inputCount ∧ circuit.inputCount < 64) :
    circuit.HasTable circuit.fullTable := by
  have wellFormed := reachable.wellFormed small
  have responds := responds_of_isSorted reachable small sorted nots
  have table := truthTable_eq_fullTable wellFormed small.le responds pins
  refine ⟨rfl, rfl, circuit.size_rows_fullTable, fun index row found => ?_, table, ?_, ?_,
    fun values length => ?_⟩
  · obtain ⟨inside, _⟩ := Array.getElem?_eq_some_iff.mp found
    rw [circuit.size_rows_fullTable] at inside
    rw [circuit.getElem?_rows_fullTable inside] at found
    obtain rfl := Option.some.inj found
    obtain ⟨_, valuation, solves, outputs⟩ := exists_solves_response reachable small sorted nots
      (Pattern.length_bigEndian circuit.inputCount index)
    exact ⟨rfl, valuation, solves, outputs⟩
  · unfold evaluateAll
    rw [table]
    rfl
  · rw [← assigned_replicate wellFormed small.le]
    exact inputValues_assigned wellFormed small.le List.length_replicate
  · have simulates := simulate_assigned wellFormed small.le responds length
    have assigns := setInputs_eq_assigned wellFormed small.le length circuit.heldValue
    rw [withPins_heldValue small.le] at assigns
    have row := circuit.row_fullTable length
    refine ⟨circuit.rowFor values, circuit.assigned values,
      TruthTable.text { circuit.fullTable with rows := #[circuit.rowFor values] }, row, assigns,
      simulates, ?_, ?_, ?_⟩
    · unfold evaluateOnce
      rw [simulates]
      rfl
    · exact TruthTable.getLast?_lines_text (List.nil_append _).symm
    · rw [TruthTable.getElem?_lines_text, TruthTable.row_eq_ok_iff.mp row]
      rfl

/-- Sorted circuits without unconnected Not gates have a table, whatever their pins hold. -/
theorem exists_hasTable {circuit : Circuit} (reachable : circuit.Reachable)
    (small : circuit.devices.size < UInt32.size) (sorted : circuit.isSorted = true)
    (nots : circuit.HasConnectedNots)
    (pins : 1 ≤ circuit.inputCount ∧ circuit.inputCount < 64) :
    ∃ table, circuit.HasTable table ∧ ∀ held, (circuit.withPins held).HasTable table := by
  refine ⟨circuit.fullTable, hasTable_fullTable reachable small sorted nots pins, fun held => ?_⟩
  have room : (circuit.withPins held).devices.size < UInt32.size := by rwa [size_withPins]
  have connected := hasConnectedNots_withPins (reachable.wellFormed small) small.le nots held
  rw [← fullTable_withPins circuit held]
  exact hasTable_fullTable (reachable_withPins reachable small held) room sorted connected pins

/-- An And gate of the first pin and of the negation of the second one, so that neither order of the
pins nor order of the rows can be exchanged. -/
theorem hasTable_inhibition :
    let circuit := ofOperations [.addInput, .addInput, .addGate .and, .addGate .not,
      .connect (.ofIndex 2) (.ofIndex 0), .connect (.ofIndex 2) (.ofIndex 3),
      .connect (.ofIndex 3) (.ofIndex 1), .addOutput (.ofIndex 2), .sort]
    circuit.Reachable ∧ circuit.devices.size < UInt32.size ∧ circuit.isSorted = true ∧
      circuit.HasConnectedNots ∧ (1 ≤ circuit.inputCount ∧ circuit.inputCount < 64) ∧
      ∃ table, circuit.HasTable table ∧ ∀ held, (circuit.withPins held).HasTable table := by
  intro circuit
  have reachable : circuit.Reachable := reachable_ofOperations _
  have small : circuit.devices.size < UInt32.size := by decide
  have sorted : circuit.isSorted = true := by decide
  have nots : circuit.HasConnectedNots := by decide
  have pins : 1 ≤ circuit.inputCount ∧ circuit.inputCount < 64 := by decide
  exact ⟨reachable, small, sorted, nots, pins, exists_hasTable reachable small sorted nots pins⟩

end Circuit

end Combinational
