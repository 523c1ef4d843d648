/-
This file proves that the functions of the outputs agree with the table of all assignments.

The functions number the assignments with the first pin as the lowest bit, the rows of the table
with the first pin as the highest one. So the value of a function for a number stands in the row of
the number whose bits are reversed. The enumeration restores the pins, so the circuit stays as it
is.

The same holds of the loop that fills tables of any kind one value after the other, if the kind of
table satisfies the laws that such tables satisfy.
-/

import Combinational.Proofs.Tabulation

namespace Combinational

/-! ### Tables that are filled -/

/-- A kind of table of Boolean functions of some variables. -/
structure BitTables (arity : Nat) (Table : Type) where
  /-- The table of the function that is always false. -/
  zero : Table
  /-- Replaces the value for one assignment, given as a number. -/
  set : Table → Nat → Bool → Table
  /-- The value for an assignment, given as a number. -/
  value : Table → Nat → Bool

namespace BitTables

/-- Nothing is true in the first table, and each replacement changes a single value. -/
structure IsLawful {arity : Nat} {Table : Type} (tables : BitTables arity Table) : Prop where
  value_zero : ∀ mask < Pattern.count arity, tables.value tables.zero mask = false
  value_set : ∀ (table : Table) (value : Bool), ∀ mask < Pattern.count arity,
    ∀ other < Pattern.count arity,
      tables.value (tables.set table mask value) other =
        if other = mask then value else tables.value table other

/-- Tables with the same values are equal. -/
def IsExtensional {arity : Nat} {Table : Type} (tables : BitTables arity Table) : Prop :=
  ∀ first second : Table,
    (∀ mask < Pattern.count arity, tables.value first mask = tables.value second mask) →
      first = second

/-- Tables with one bit per assignment. -/
def vectors (arity : Nat) : BitTables arity (Vector Bool (Pattern.count arity)) where
  zero := Vector.replicate (Pattern.count arity) false
  set table mask value := table.setIfInBounds mask value
  value table mask := table[mask]? == some true

theorem isLawful_vectors (arity : Nat) : (vectors arity).IsLawful where
  value_zero mask inside := by simp [vectors, Vector.getElem?_replicate]
  value_set table value mask inside other _ := by
    by_cases same : mask = other
    · subst same
      simp [vectors, inside]
    · simp [vectors, same, Ne.symm same, Vector.getElem?_setIfInBounds_ne]

theorem isExtensional_vectors (arity : Nat) : (vectors arity).IsExtensional := by
  intro first second agree
  ext mask inside
  have same := agree mask inside
  simp only [vectors, Vector.getElem?_eq_getElem inside] at same
  simpa using same

variable {arity : Nat} {Table : Type} {tables : BitTables arity Table}

/-- Each value is the one that was filled in for its assignment. -/
theorem value_foldl_set (lawful : tables.IsLawful) (values : Nat → Bool) {count : Nat}
    (small : count ≤ Pattern.count arity) {mask : Nat} (inside : mask < Pattern.count arity) :
    tables.value ((List.range count).foldl (fun table mask => tables.set table mask (values mask))
      tables.zero) mask = if mask < count then values mask else false := by
  induction count with
  | zero => exact lawful.value_zero mask inside
  | succ count inductionHypothesis =>
    rw [List.range_succ, List.foldl_concat, lawful.value_set _ _ count small mask inside,
      inductionHypothesis (by omega)]
    by_cases last : mask = count
    · rw [if_pos last, if_pos (by omega), last]
    · rw [if_neg last]
      exact if_congr (by omega) rfl rfl

end BitTables

namespace Circuit

/-- Fills a table for each output, one assignment after the other. The input pins get their values
back. -/
def fillFunctions {Table : Type} (circuit : Circuit) (tables : BitTables circuit.inputCount Table) :
    Except Misuse (List Table) × Circuit :=
  let fill (filled : Nat × List Table) (row : Row) : Nat × List Table :=
    (filled.1 + 1,
      List.zipWith (fun table value => tables.set table filled.1 value) filled.2 row.outputs)
  match sweep (Pattern.littleEndian circuit.inputCount) fill (Pattern.count circuit.inputCount) 0
      (0, List.replicate circuit.outputCount tables.zero) circuit with
  | (.error misuse, swept) => (.error misuse, swept)
  | (.ok (_, filled), swept) =>
    match swept.setInputs circuit.inputValues with
    | .error misuse => (.error misuse, swept)
    | .ok restored => (.ok filled, restored)

/-! ### Columns -/

/-- Each column grows by its own bit of every row. -/
theorem foldl_columns {Column : Type} (extend : Nat → Column → Bool → Column)
    (bit : Nat → Nat → Bool) (width : Nat) (numbers : List Nat) (columns : Nat → Column) :
    numbers.foldl (fun columns number =>
        List.zipWith (extend number) columns ((List.range width).map (bit · number)))
        ((List.range width).map columns) =
      (List.range width).map fun position =>
        numbers.foldl (fun column number => extend number column (bit position number))
          (columns position) := by
  induction numbers generalizing columns with
  | nil => rfl
  | cons number numbers inductionHypothesis =>
    rw [List.foldl_cons, List.zipWith_map, List.zipWith_self, inductionHypothesis]
    rfl

/-- The number of the row goes along with the columns. -/
theorem foldl_numbered {Columns : Type} (extend : Nat → Columns → Row → Columns)
    (rows : Nat → Row) (count : Nat) (columns : Columns) :
    ((List.range count).map rows).foldl
        (fun filled row => (filled.1 + 1, extend filled.1 filled.2 row)) (0, columns) =
      (count, (List.range count).foldl
        (fun columns number => extend number columns (rows number)) columns) := by
  induction count with
  | zero => rfl
  | succ count inductionHypothesis =>
    rw [List.range_succ, List.map_append, List.foldl_append, inductionHypothesis,
      List.foldl_append]
    rfl

/-- The value of an output for an assignment, given as a number with the first pin as its lowest
bit. -/
def outputBit (circuit : Circuit) (position mask : Nat) : Bool :=
  match (circuit.response (Pattern.littleEndian circuit.inputCount mask))[position]? with
  | some value => value
  | none => false

theorem response_littleEndian {circuit : Circuit} (reachable : circuit.Reachable)
    (small : circuit.devices.size < UInt32.size) (sorted : circuit.isSorted = true)
    (nots : circuit.HasConnectedNots) (mask : Nat) :
    circuit.response (Pattern.littleEndian circuit.inputCount mask) =
      (List.range circuit.outputCount).map (circuit.outputBit · mask) := by
  obtain ⟨_, valuation, _, outputs⟩ := exists_solves_response reachable small sorted nots
    (Pattern.length_littleEndian circuit.inputCount mask)
  have length : (circuit.response (Pattern.littleEndian circuit.inputCount mask)).length =
      circuit.outputCount := by
    rw [outputs, List.length_map, Array.length_toList]
    rfl
  refine List.ext_getElem (by rw [length, List.length_map, List.length_range])
    fun position inside _ => ?_
  rw [List.getElem_map, List.getElem_range, outputBit, List.getElem?_eq_getElem inside]

/-! ### Restoring the pins -/

theorem length_inputValues (circuit : Circuit) :
    circuit.inputValues.length = circuit.inputCount :=
  (List.length_map ..).trans Array.length_toList

theorem assigned_inputValues {circuit : Circuit} (wellFormed : circuit.WellFormed)
    (small : circuit.devices.size ≤ UInt32.size) :
    circuit.assigned circuit.inputValues = circuit :=
  (assigned_map wellFormed small circuit.heldValue).trans (withPins_heldValue small)

theorem setInputs_inputValues {circuit : Circuit} (wellFormed : circuit.WellFormed)
    (small : circuit.devices.size ≤ UInt32.size) (held : DeviceId → Bool) :
    (circuit.withPins held).setInputs circuit.inputValues = .ok circuit := by
  rw [setInputs_eq_assigned wellFormed small circuit.length_inputValues,
    assigned_inputValues wellFormed small]

/-! ### The functions -/

section Functions

variable {circuit : Circuit} (reachable : circuit.Reachable)
  (small : circuit.devices.size < UInt32.size) (sorted : circuit.isSorted = true)
  (nots : circuit.HasConnectedNots)

include reachable small sorted nots

theorem sweep_littleEndian {Result : Type} (keep : Result → Row → Result) (result : Result) :
    ∃ swept, swept.setInputs circuit.inputValues = .ok circuit ∧
      sweep (Pattern.littleEndian circuit.inputCount) keep (Pattern.count circuit.inputCount) 0
        result circuit =
      (.ok (((List.range (Pattern.count circuit.inputCount)).map fun number =>
        circuit.rowFor (Pattern.littleEndian circuit.inputCount number)).foldl keep result),
        swept) := by
  have wellFormed := reachable.wellFormed small
  have sweeps := sweep_eq wellFormed small.le (responds_of_isSorted reachable small sorted nots)
    (Pattern.length_littleEndian circuit.inputCount) keep (Pattern.count_pos circuit.inputCount)
    result circuit.heldValue
  rw [withPins_heldValue small.le] at sweeps
  exact ⟨_, setInputs_inputValues wellFormed small.le _, sweeps⟩

theorem outputFunctions_eq : circuit.outputFunctions =
    (.ok ((List.range circuit.outputCount).map fun position =>
      LookupTable.ofValues circuit.inputCount
        ((List.range (Pattern.count circuit.inputCount)).map (circuit.outputBit position)).toArray),
      circuit) := by
  obtain ⟨swept, restores, sweeps⟩ := sweep_littleEndian reachable small sorted nots addColumns
    (List.replicate circuit.outputCount #[])
  have columns := foldl_columns (fun _ => Array.push) circuit.outputBit circuit.outputCount
    (List.range (Pattern.count circuit.inputCount)) fun _ => #[]
  simp only [← response_littleEndian reachable small sorted nots, List.foldl_push_eq_append,
    Array.empty_append, List.map_const', List.length_range] at columns
  unfold outputFunctions
  simp only [sweeps, restores]
  rw [List.foldl_map]
  simp only [addColumns, rowFor, columns, List.map_map]
  rfl

theorem fillFunctions_eq {Table : Type} (tables : BitTables circuit.inputCount Table) :
    circuit.fillFunctions tables =
      (.ok ((List.range circuit.outputCount).map fun position =>
        (List.range (Pattern.count circuit.inputCount)).foldl
          (fun table mask => tables.set table mask (circuit.outputBit position mask)) tables.zero),
        circuit) := by
  obtain ⟨swept, restores, sweeps⟩ := sweep_littleEndian reachable small sorted nots
    (fun (filled : Nat × List Table) row => (filled.1 + 1, List.zipWith
      (fun table value => tables.set table filled.1 value) filled.2 row.outputs))
    (0, List.replicate circuit.outputCount tables.zero)
  have columns := foldl_columns (fun mask table value => tables.set table mask value)
    circuit.outputBit circuit.outputCount (List.range (Pattern.count circuit.inputCount))
    fun _ => tables.zero
  simp only [← response_littleEndian reachable small sorted nots, List.map_const',
    List.length_range] at columns
  rw [foldl_numbered fun mask tables' row => List.zipWith
      (fun table value => tables.set table mask value) tables' row.outputs] at sweeps
  unfold fillFunctions
  simp only [sweeps, restores]
  simp only [rowFor, columns]

end Functions

/-! ### Main statement -/

/-- The value of each output function for a number is the entry of the output in the row of the
number whose bits are reversed, and the circuit stays as it is. The same holds of the tables of any
lawful kind that are filled for the outputs. -/
theorem outputFunctions_spec {circuit : Circuit} (reachable : circuit.Reachable)
    (small : circuit.devices.size < UInt32.size) (sorted : circuit.isSorted = true)
    (nots : circuit.HasConnectedNots)
    (pins : 1 ≤ circuit.inputCount ∧ circuit.inputCount < 64) {Table : Type}
    {tables : BitTables circuit.inputCount Table} (lawful : tables.IsLawful) :
    ∃ table functions filled,
      circuit.truthTable.1 = .ok table ∧
      circuit.outputFunctions = (.ok functions, circuit) ∧
      circuit.fillFunctions tables = (.ok filled, circuit) ∧
      functions.length = circuit.outputCount ∧ filled.length = circuit.outputCount ∧
      ∀ position < circuit.outputCount, ∃ function bits,
        functions[position]? = some function ∧ filled[position]? = some bits ∧
        function.arity = circuit.inputCount ∧
        ∀ mask < Pattern.count circuit.inputCount, ∃ row value,
          table.rows[Pattern.reversed circuit.inputCount mask]? = some row ∧
          row.outputs[position]? = some value ∧
          function.value mask = value ∧ tables.value bits mask = value := by
  have wellFormed := reachable.wellFormed small
  have responds := responds_of_isSorted reachable small sorted nots
  have table := truthTable_eq_fullTable wellFormed small.le responds pins
  refine ⟨circuit.fullTable, _, _, congrArg Prod.fst table,
    outputFunctions_eq reachable small sorted nots,
    fillFunctions_eq reachable small sorted nots tables, by simp, by simp,
    fun position inside => ⟨LookupTable.ofValues circuit.inputCount
      ((List.range (Pattern.count circuit.inputCount)).map (circuit.outputBit position)).toArray,
      (List.range (Pattern.count circuit.inputCount)).foldl
        (fun bits mask => tables.set bits mask (circuit.outputBit position mask)) tables.zero,
      ?_, ?_, rfl, fun mask below => ⟨circuit.rowFor (Pattern.littleEndian circuit.inputCount mask),
        circuit.outputBit position mask, ?_, ?_, ?_, ?_⟩⟩⟩
  · rw [List.getElem?_map, List.getElem?_range inside]
    rfl
  · rw [List.getElem?_map, List.getElem?_range inside]
    rfl
  · rw [circuit.getElem?_rows_fullTable (Pattern.reversed_lt _ mask), Pattern.bigEndian_reversed]
  · show (circuit.response (Pattern.littleEndian circuit.inputCount mask))[position]? = _
    rw [response_littleEndian reachable small sorted nots, List.getElem?_map,
      List.getElem?_range inside]
    rfl
  · rw [LookupTable.value_ofValues (by simpa using below)]
    simp
  · rw [BitTables.value_foldl_set lawful _ le_rfl below, if_pos below]

/-- The two pins of an And gate that negates the second one cannot be exchanged, and the tables of
its function have one bit per assignment. -/
theorem outputFunctions_inhibition :
    let circuit := ofOperations [.addInput, .addInput, .addGate .and, .addGate .not,
      .connect (.ofIndex 2) (.ofIndex 0), .connect (.ofIndex 2) (.ofIndex 3),
      .connect (.ofIndex 3) (.ofIndex 1), .addOutput (.ofIndex 2), .sort]
    let tables := BitTables.vectors circuit.inputCount
    circuit.Reachable ∧ circuit.devices.size < UInt32.size ∧ circuit.isSorted = true ∧
      circuit.HasConnectedNots ∧ (1 ≤ circuit.inputCount ∧ circuit.inputCount < 64) ∧
      tables.IsLawful ∧ ∃ functions filled, circuit.outputFunctions = (.ok functions, circuit) ∧
        circuit.fillFunctions tables = (.ok filled, circuit) := by
  intro circuit tables
  have reachable : circuit.Reachable := reachable_ofOperations _
  have small : circuit.devices.size < UInt32.size := by decide
  have sorted : circuit.isSorted = true := by decide
  have nots : circuit.HasConnectedNots := by decide
  have pins : 1 ≤ circuit.inputCount ∧ circuit.inputCount < 64 := by decide
  have lawful : tables.IsLawful := BitTables.isLawful_vectors circuit.inputCount
  obtain ⟨_, functions, filled, _, computed, fills, _⟩ :=
    outputFunctions_spec reachable small sorted nots pins lawful
  exact ⟨reachable, small, sorted, nots, pins, lawful, functions, filled, computed, fills⟩

end Circuit

end Combinational
