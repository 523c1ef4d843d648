/-
This file proves that outputs with equal columns are grouped, and no others.

Tables of any kind can be grouped by entering the position of each one into a hash map, with the
table as the key. The groups of at least two positions are then sorted. No hash function and no
order in which the map lists its entries makes a difference, since the sorted groups are the classes
of equal tables in any case.

The functions of two outputs are equal exactly if the outputs have the same column in the table of
all assignments. For this, tables with the same values must be equal.
-/

import Combinational.Proofs.Classes
import Combinational.Proofs.Obstacles
import Mathlib.Data.List.Lex

namespace Combinational

namespace LookupTable

/-! ### Groups in a hash map -/

/-- The groups of at least two positions, in lexicographic order. -/
def collate (groups : List (List Nat)) : List (List Nat) :=
  (groups.filter fun group => 1 < group.length).mergeSort

theorem mem_collate_iff {groups : List (List Nat)} {group : List Nat} :
    group ∈ collate groups ↔ group ∈ groups ∧ 2 ≤ group.length := by
  simp [collate, Nat.succ_le_iff]

theorem pairwise_collate (groups : List (List Nat)) : (collate groups).Pairwise (· ≤ ·) := by
  have ordered : (collate groups).Pairwise fun first second => decide (first ≤ second) = true :=
    List.pairwise_mergeSort (by simpa using fun _ _ _ => le_trans) (by simpa using le_total) _
  exact ordered.imp of_decide_eq_true

variable {Table : Type} [BEq Table]

/-- As different groups start with different positions, their order is the one of these
positions. -/
theorem precedes_of_le [LawfulBEq Table] {tables : List Table} {first second : List Nat}
    (firstIsClass : IsClass tables first) (secondIsClass : IsClass tables second)
    (differ : first ≠ second) (ordered : first ≤ second) : Precedes first second := by
  obtain ⟨table, firstIs, firstMany⟩ := firstIsClass
  obtain ⟨other, secondIs, secondMany⟩ := secondIsClass
  obtain ⟨least, _, rfl⟩ := List.exists_cons_of_length_pos (Nat.zero_lt_of_lt firstMany)
  obtain ⟨next, _, rfl⟩ := List.exists_cons_of_length_pos (Nat.zero_lt_of_lt secondMany)
  refine ⟨least, rfl, next, rfl, ?_⟩
  rcases List.cons_lt_cons_iff.mp (lt_of_le_of_ne ordered differ) with less | ⟨rfl, _⟩
  · exact less
  · have same : table = other := eq_of_mem_positions (firstIs ▸ List.mem_cons_self)
      (secondIs ▸ List.mem_cons_self)
    exact absurd (firstIs.trans (same ▸ secondIs.symm)) differ

section HashMap

variable [Hashable Table]

/-- Adds a position to the group of its table, which is empty at first. -/
def enter (map : Std.HashMap Table (List Nat)) (entry : Table × Nat) :
    Std.HashMap Table (List Nat) :=
  map.alter entry.1 fun group? => some (group?.getD [] ++ [entry.2])

/-- The positions of each table, counted from one. -/
def collect (tables : List Table) : Std.HashMap Table (List Nat) :=
  (tables.zipIdx 1).foldl enter ∅

/-- The groups in the map, in the order in which it lists its entries. -/
def collected (tables : List Table) : List (List Nat) :=
  (collect tables).toList.map Prod.snd

variable [LawfulBEq Table]

theorem getElem?_enter (map : Std.HashMap Table (List Nat)) (table key : Table)
    (number : Nat) :
    (enter map (table, number))[key]? =
      if table == key then some (map[key]?.getD [] ++ [number]) else map[key]? := by
  simp only [enter, Std.HashMap.getElem?_alter]
  split
  · next same => rw [eq_of_beq same]
  · rfl

/-- The numbers of a table are appended to its group. -/
theorem getElem?_foldl_enter (numbered : List (Table × Nat))
    (map : Std.HashMap Table (List Nat)) (key : Table) :
    (numbered.foldl enter map)[key]? =
      if numbers numbered key = [] then map[key]?
      else some (map[key]?.getD [] ++ numbers numbered key) := by
  induction numbered generalizing map with
  | nil => rfl
  | cons entry numbered inductionHypothesis =>
    obtain ⟨table, number⟩ := entry
    rw [List.foldl_cons, inductionHypothesis, getElem?_enter]
    by_cases same : table = key
    · subst same
      rw [numbers_cons_self]
      by_cases last : numbers numbered table = [] <;> simp [last]
    · have skip : numbers ((table, number) :: numbered) key = numbers numbered key := by
        simp [numbers, same]
      have unequal : ¬ (table == key) = true := by simpa using same
      rw [skip, if_neg unequal]

/-- Every table has an entry in the map, which is the list of its positions. -/
theorem getElem?_collect_eq_some_iff {tables : List Table} {table : Table}
    {group : List Nat} :
    (collect tables)[table]? = some group ↔ group = positions tables table ∧ group ≠ [] := by
  rw [collect, getElem?_foldl_enter, ← positions]
  by_cases absent : positions tables table = []
  · simp +contextual [absent]
  · simp +contextual [absent, eq_comm]

theorem mem_collected_iff {tables : List Table} {group : List Nat} :
    group ∈ collected tables ↔ ∃ table, group = positions tables table ∧ group ≠ [] := by
  simp [collected, Std.HashMap.mem_toList_iff_getElem?_eq_some, getElem?_collect_eq_some_iff]

/-- Different tables have different groups. -/
theorem nodup_collected (tables : List Table) : (collected tables).Nodup := by
  rw [collected, List.Nodup, List.pairwise_map]
  refine (Std.HashMap.distinct_keys_toList (m := collect tables)).imp_of_mem
    fun {first second} inFirst inSecond differ same => ?_
  rw [Std.HashMap.mem_toList_iff_getElem?_eq_some, getElem?_collect_eq_some_iff] at inFirst inSecond
  obtain ⟨position, member⟩ := List.exists_mem_of_ne_nil _ inFirst.2
  have equal := eq_of_mem_positions (inFirst.1 ▸ member) (inSecond.1 ▸ same ▸ member)
  simp [equal] at differ

/-- Whatever the order in which the map lists its groups, they are collated into the classes. -/
theorem collate_eq_equivalent {tables : List Table} {values : List (List Nat)}
    (perm : values.Perm (collected tables)) : collate values = equivalent tables := by
  have members : ∀ group, group ∈ collate values ↔ IsClass tables group := by
    intro group
    rw [mem_collate_iff, perm.mem_iff, mem_collected_iff]
    constructor
    · rintro ⟨⟨table, equal, _⟩, many⟩
      exact ⟨table, equal, many⟩
    · rintro ⟨table, equal, many⟩
      exact ⟨⟨table, equal, List.ne_nil_of_length_pos (Nat.zero_lt_of_lt many)⟩, many⟩
  have nodup : (collate values).Nodup :=
    (List.mergeSort_perm ..).nodup_iff.mpr
      ((perm.nodup_iff.mpr (nodup_collected tables)).filter _)
  have precede : (collate values).Pairwise Precedes :=
    ((pairwise_collate values).and nodup).imp_of_mem fun inFirst inSecond ordered =>
      precedes_of_le ((members _).mp inFirst) ((members _).mp inSecond) ordered.2 ordered.1
  exact (areClasses_of_mem_iff members precede).unique (areClasses_equivalent tables)

end HashMap

end LookupTable

/-! ### Columns -/

/-- The values of an output in all the rows. -/
def TruthTable.column (table : TruthTable) (position : Nat) : Array (Option Bool) :=
  table.rows.map fun row => row.outputs[position]?

namespace Circuit

/-- The function of an output, by its values. -/
def outputFunction (circuit : Circuit) (position : Nat) : LookupTable :=
  LookupTable.ofValues circuit.inputCount
    ((List.range (Pattern.count circuit.inputCount)).map (circuit.outputBit position)).toArray

theorem outputFunction_eq_iff {circuit : Circuit} {first second : Nat} :
    circuit.outputFunction first = circuit.outputFunction second ↔
      ∀ mask < Pattern.count circuit.inputCount,
        circuit.outputBit first mask = circuit.outputBit second mask := by
  rw [outputFunction, outputFunction, LookupTable.ofValues_inj (by simp), ← Array.toList_inj]
  simp

section Columns

variable {circuit : Circuit} (reachable : circuit.Reachable)
  (small : circuit.devices.size < UInt32.size) (sorted : circuit.isSorted = true)
  (nots : circuit.HasConnectedNots)

include reachable small sorted nots

theorem column_fullTable {position : Nat} (inside : position < circuit.outputCount) :
    circuit.fullTable.column position =
      ((List.range (Pattern.count circuit.inputCount)).map fun index =>
        some (circuit.outputBit position (Pattern.reversed circuit.inputCount index))).toArray := by
  rw [TruthTable.column, fullTable, List.map_toArray, List.map_map]
  congr 1
  refine List.map_congr_left fun index _ => ?_
  show (circuit.response (Pattern.bigEndian circuit.inputCount index))[position]? = _
  rw [← Pattern.littleEndian_reversed, response_littleEndian reachable small sorted nots]
  simp [inside]

/-- Two outputs have the same bits exactly if they have the same column. -/
theorem agree_iff_column {first second : Nat} (firstInside : first < circuit.outputCount)
    (secondInside : second < circuit.outputCount) :
    (∀ mask < Pattern.count circuit.inputCount,
        circuit.outputBit first mask = circuit.outputBit second mask) ↔
      circuit.fullTable.column first = circuit.fullTable.column second := by
  rw [column_fullTable reachable small sorted nots firstInside,
    column_fullTable reachable small sorted nots secondInside, ← Array.toList_inj]
  simp only [List.map_inj_left, List.mem_range, Option.some.injEq]
  constructor
  · exact fun agree index _ => agree _ (Pattern.reversed_lt ..)
  · intro agree mask below
    have same := agree _ (Pattern.reversed_lt circuit.inputCount mask)
    rwa [Pattern.reversed_reversed below] at same

end Columns

/-- Outputs are grouped by their columns: the functions are known exactly if the circuit can be
evaluated, and then two outputs are in one group of equal functions exactly if they have the same
column. -/
def GroupsByColumn {Table : Type} [BEq Table] (circuit : Circuit)
    (answer : Except Misuse (List Table)) : Prop :=
  ((∃ functions, answer = .ok functions) ↔
    circuit.isSorted = true ∧ circuit.HasConnectedNots) ∧
  ∀ functions, answer = .ok functions →
    ∃ table, circuit.truthTable.1 = .ok table ∧ functions.length = circuit.outputCount ∧
      ∀ first < circuit.outputCount, ∀ second < circuit.outputCount, first ≠ second →
        (LookupTable.ShareGroup (LookupTable.equivalent functions) (first + 1) (second + 1) ↔
          table.column first = table.column second)

/-- An enumeration that completes unless there is an obstacle completes exactly if the circuit can
be evaluated. -/
theorem StopsAtOnce.exists_iff {Result : Type} {circuit : Circuit}
    {answer : Except Misuse Result × Circuit}
    (stops : circuit.StopsAtOnce circuit.obstacle? answer) :
    (∃ result, answer.1 = .ok result) ↔ circuit.isSorted = true ∧ circuit.HasConnectedNots := by
  rw [← obstacle?_eq_none_iff]
  cases obstacle : circuit.obstacle? with
  | none =>
    rw [obstacle] at stops
    exact iff_of_true stops rfl
  | some misuse =>
    rw [obstacle] at stops
    obtain ⟨_, _, fails, _⟩ := stops
    rw [fails]
    exact iff_of_false nofun nofun

section GroupsByColumn

variable {circuit : Circuit} (reachable : circuit.Reachable)
  (small : circuit.devices.size < UInt32.size)
  (pins : 1 ≤ circuit.inputCount ∧ circuit.inputCount < 64)

include reachable small pins

/-- Functions that are equal exactly if they have the same bits are grouped by their columns. -/
theorem groupsByColumn_of_bits {Table : Type} [BEq Table] [LawfulBEq Table]
    {answer : Except Misuse (List Table) × Circuit}
    (stops : circuit.StopsAtOnce circuit.obstacle? answer) (function : Nat → Table)
    (computes : circuit.isSorted = true → circuit.HasConnectedNots →
      answer.1 = .ok ((List.range circuit.outputCount).map function))
    (agree : ∀ first second, function first = function second ↔
      ∀ mask < Pattern.count circuit.inputCount,
        circuit.outputBit first mask = circuit.outputBit second mask) :
    circuit.GroupsByColumn answer.1 := by
  refine ⟨stops.exists_iff, fun functions computed => ?_⟩
  obtain ⟨sorted, nots⟩ := stops.exists_iff.mp ⟨functions, computed⟩
  obtain rfl : functions = (List.range circuit.outputCount).map function :=
    Except.ok.inj (computed.symm.trans (computes sorted nots))
  have table := truthTable_eq_fullTable (reachable.wellFormed small) small.le
    (responds_of_isSorted reachable small sorted nots) pins
  have holds : ∀ position < circuit.outputCount,
      LookupTable.tableAt? ((List.range circuit.outputCount).map function) (position + 1) =
        some (function position) := by
    intro position inside
    simp [LookupTable.tableAt?, inside]
  refine ⟨circuit.fullTable, congrArg Prod.fst table, by simp,
    fun first firstInside second secondInside differ => ?_⟩
  rw [LookupTable.shareGroup_equivalent_iff (by omega), holds first firstInside,
    holds second secondInside,
    ← agree_iff_column reachable small sorted nots firstInside secondInside, ← agree]
  constructor
  · rintro ⟨_, ofFirst, ofSecond⟩
    exact Option.some.inj (ofFirst.trans ofSecond.symm)
  · exact fun same => ⟨_, congrArg some same, rfl⟩

theorem groupsByColumn_outputFunctions : circuit.GroupsByColumn circuit.outputFunctions.1 :=
  groupsByColumn_of_bits reachable small pins (stopsAtOnce_outputFunctions reachable small)
    circuit.outputFunction
    (fun sorted nots => congrArg Prod.fst (outputFunctions_eq reachable small sorted nots))
    fun _ _ => outputFunction_eq_iff

theorem groupsByColumn_fillFunctions {Table : Type} [BEq Table] [LawfulBEq Table]
    {tables : BitTables circuit.inputCount Table} (lawful : tables.IsLawful)
    (extensional : tables.IsExtensional) :
    circuit.GroupsByColumn (circuit.fillFunctions tables).1 := by
  refine groupsByColumn_of_bits reachable small pins
    (stopsAtOnce_fillFunctions reachable small tables) _
    (fun sorted nots => congrArg Prod.fst (fillFunctions_eq reachable small sorted nots tables))
    fun first second => ⟨fun same mask below => ?_, fun agree => ?_⟩
  · have values := congrArg (tables.value · mask) same
    simpa only [BitTables.value_foldl_set lawful _ le_rfl below, if_pos below] using values
  · refine extensional _ _ fun mask below => ?_
    simp only [BitTables.value_foldl_set lawful _ le_rfl below, if_pos below]
    exact agree mask below

end GroupsByColumn

end Circuit

/-! ### Main statement -/

namespace LookupTable

/-- Equal tables are grouped into the classes that have at least two members, which are listed in
one way only, and a hash map leads to the same groups, whatever its hash function and whatever the
order of its entries. Of the functions of a circuit, those with equal columns are grouped. All this
holds of any kind of table that can be compared, if tables with the same bits are equal. -/
theorem equivalent_spec {Table : Type} [BEq Table] [LawfulBEq Table] :
    (∀ (tables : List Table) groups, AreClasses tables groups ↔ groups = equivalent tables) ∧
    (∀ [Hashable Table] (tables : List Table) (values : List (List Nat)),
      values.Perm (collected tables) → collate values = equivalent tables) ∧
    ∀ circuit : Circuit, circuit.Reachable → circuit.devices.size < UInt32.size →
      1 ≤ circuit.inputCount ∧ circuit.inputCount < 64 →
        circuit.GroupsByColumn circuit.outputFunctions.1 ∧
        ∀ tables : BitTables circuit.inputCount Table, tables.IsLawful → tables.IsExtensional →
          circuit.GroupsByColumn (circuit.fillFunctions tables).1 := by
  refine ⟨fun tables groups => ⟨fun classes => ?_, ?_⟩, fun tables values => ?_,
    fun circuit reachable small pins => ⟨?_, fun tables lawful extensional => ?_⟩⟩
  · exact classes.unique (areClasses_equivalent tables)
  · rintro rfl
    exact areClasses_equivalent tables
  · exact collate_eq_equivalent
  · exact Circuit.groupsByColumn_outputFunctions reachable small pins
  · exact Circuit.groupsByColumn_fillFunctions reachable small pins lawful extensional

/-- Two And gates have the same references, in different order, and the Or gate between them has
another column. The hash map may list its groups in reverse, and the functions may be vectors of
bits. -/
theorem shareGroup_equivalent_conjunctions :
    let circuit := Circuit.ofOperations [.addInputs 2, .addGate .and, .addGate .or, .addGate .and,
      .connect (.ofIndex 2) (.ofIndex 0), .connect (.ofIndex 2) (.ofIndex 1),
      .connect (.ofIndex 3) (.ofIndex 0), .connect (.ofIndex 3) (.ofIndex 1),
      .connect (.ofIndex 4) (.ofIndex 1), .connect (.ofIndex 4) (.ofIndex 0),
      .addOutput (.ofIndex 2), .addOutput (.ofIndex 3), .addOutput (.ofIndex 4), .sort]
    circuit.Reachable ∧ circuit.devices.size < UInt32.size ∧
      (1 ≤ circuit.inputCount ∧ circuit.inputCount < 64) ∧
      ∃ functions, circuit.outputFunctions.1 = .ok functions ∧
        ShareGroup (equivalent functions) 1 3 ∧ ¬ ShareGroup (equivalent functions) 1 2 ∧
        AreClasses functions (equivalent functions) ∧
        (∀ [Hashable LookupTable], collate (collected functions).reverse = equivalent functions) ∧
        circuit.GroupsByColumn (circuit.fillFunctions (.vectors circuit.inputCount)).1 := by
  intro circuit
  have reachable : circuit.Reachable := Circuit.reachable_ofOperations _
  have small : circuit.devices.size < UInt32.size := by decide
  have pins : 1 ≤ circuit.inputCount ∧ circuit.inputCount < 64 := by decide
  obtain ⟨classes, collates, byColumn⟩ := @equivalent_spec LookupTable _ _
  obtain ⟨⟨known, shares⟩, _⟩ := byColumn circuit reachable small pins
  obtain ⟨_, _, ofBits⟩ := @equivalent_spec (Vector Bool (Pattern.count circuit.inputCount)) _ _
  obtain ⟨_, ofVectors⟩ := ofBits circuit reachable small pins
  obtain ⟨functions, computed⟩ := known.mpr (by decide)
  obtain ⟨table, tabulates, _, groups⟩ := shares functions computed
  have columns : circuit.truthTable.1.toOption.map (fun table =>
      decide (table.column 0 = table.column 2 ∧ table.column 0 ≠ table.column 1)) = some true := by
    decide +kernel
  rw [tabulates] at columns
  obtain ⟨equal, different⟩ := of_decide_eq_true (Option.some.inj columns)
  exact ⟨reachable, small, pins, functions, computed,
    (groups 0 (by decide) 2 (by decide) (by decide)).mpr equal,
    fun share => different ((groups 0 (by decide) 1 (by decide) (by decide)).mp share),
    (classes functions _).mpr rfl, collates functions _ (List.reverse_perm _),
    ofVectors _ (BitTables.isLawful_vectors _) (BitTables.isExtensional_vectors _)⟩

end LookupTable

end Combinational
