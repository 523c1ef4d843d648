/-
This file proves that the groups of equal tables are their classes.

A group lists the positions of one table, and there is a group for each table with at least two
positions. The groups are ordered by their first members. As different tables have no position in
common, these two facts leave a single list of groups.
-/

import Combinational.LookupTable
import Combinational.Proofs.Graph

namespace Combinational.LookupTable

variable {Table : Type}

/-! ### Groups of positions -/

/-- The table at a position, counted from one. -/
def tableAt? (tables : List Table) (position : Nat) : Option Table :=
  if position = 0 then none else tables[position - 1]?

/-- Numbers that ascend along the list. -/
def Ascend (numbered : List (Table × Nat)) : Prop :=
  numbered.Pairwise fun first second => first.2 < second.2

theorem ascend_zipIdx (tables : List Table) (start : Nat) : Ascend (tables.zipIdx start) := by
  have ascending := List.pairwise_lt_range' (s := start) (n := tables.length) 1
  rwa [← List.zipIdx_map_snd, List.pairwise_map] at ascending

/-- The first member of one group is less than the first member of another one. -/
def Precedes (first second : List Nat) : Prop :=
  ∃ least ∈ first.head?, ∃ next ∈ second.head?, least < next

instance : Std.Asymm Precedes where
  asymm := by
    rintro first second ⟨_, ofFirst, _, ofSecond, less⟩ ⟨_, again, _, same, greater⟩
    rw [Option.mem_def] at ofFirst ofSecond again same
    rw [again] at ofSecond
    rw [same] at ofFirst
    cases ofFirst
    cases ofSecond
    exact Nat.lt_asymm less greater

/-- The groups are the classes of equal tables with at least two members, each one once. -/
structure AreClasses (tables : List Table) (groups : List (List Nat)) : Prop where
  /-- A group has at least two members. -/
  two_le_length : ∀ group ∈ groups, 2 ≤ group.length
  /-- Its members ascend. -/
  ascend : ∀ group ∈ groups, group.Pairwise (· < ·)
  /-- They are all the positions of one table. -/
  exists_table : ∀ group ∈ groups, ∃ table, ∀ position,
    position ∈ group ↔ tableAt? tables position = some table
  /-- Positions in different groups hold different tables. -/
  differ : groups.Pairwise fun first second =>
    ∀ position ∈ first, ∀ other ∈ second, tableAt? tables position ≠ tableAt? tables other
  /-- A position of a table that has another one is in exactly one group, once. -/
  count_eq_one : ∀ position other table, position ≠ other →
    tableAt? tables position = some table → tableAt? tables other = some table →
    groups.flatten.count position = 1
  /-- The groups are ordered by their first members. -/
  precede : groups.Pairwise Precedes

/-- Whether two positions are in one group. -/
def ShareGroup (groups : List (List Nat)) (first second : Nat) : Prop :=
  ∃ group ∈ groups, first ∈ group ∧ second ∈ group

/-! ### Numbers of a table -/

variable [BEq Table]

/-- The numbers of a table among numbered tables. -/
def numbers (numbered : List (Table × Nat)) (table : Table) : List Nat :=
  (numbered.filter fun entry => entry.1 == table).map Prod.snd

/-- The positions of a table, counted from one. -/
def positions (tables : List Table) (table : Table) : List Nat :=
  numbers (tables.zipIdx 1) table

/-- Whether a group is the class of a table with at least two members. -/
def IsClass (tables : List Table) (group : List Nat) : Prop :=
  ∃ table, group = positions tables table ∧ 2 ≤ group.length

theorem pairwise_numbers {numbered : List (Table × Nat)} (ascend : Ascend numbered)
    (table : Table) : (numbers numbered table).Pairwise (· < ·) := by
  rw [numbers, List.pairwise_map]
  exact ascend.filter _

theorem pairwise_positions (tables : List Table) (table : Table) :
    (positions tables table).Pairwise (· < ·) :=
  pairwise_numbers (ascend_zipIdx tables 1) table

/-- The recursion of the groups, which goes on behind the first table without its twins. -/
theorem byTable {motive : List (Table × Nat) → Prop} (nil : motive [])
    (cons : ∀ table number others, motive (others.filter fun entry => entry.1 != table) →
      motive ((table, number) :: others)) (numbered : List (Table × Nat)) :
    motive numbered := by
  induction numbered using groups.induct with
  | case1 => exact nil
  | case2 table number others _ _ inductionHypothesis =>
    simp only [List.unattach_filter, List.unattach_attach] at inductionHypothesis
    exact cons table number others inductionHypothesis
  | case3 table number others _ _ inductionHypothesis =>
    simp only [List.unattach_filter, List.unattach_attach] at inductionHypothesis
    exact cons table number others inductionHypothesis

variable [LawfulBEq Table]

theorem mem_numbers_iff {numbered : List (Table × Nat)} {table : Table}
    {number : Nat} : number ∈ numbers numbered table ↔ (table, number) ∈ numbered := by
  simp [numbers]

theorem mem_positions_iff {tables : List Table} {table : Table} {position : Nat} :
    position ∈ positions tables table ↔ tableAt? tables position = some table := by
  rw [positions, mem_numbers_iff, List.mk_mem_zipIdx_iff_le_and_getElem?_sub, tableAt?]
  split
  · next zero => simp [zero]
  · next positive => simp [Nat.one_le_iff_ne_zero, positive]

/-- A position holds a single table. -/
theorem eq_of_mem_positions {tables : List Table} {first second : Table}
    {position : Nat} (inFirst : position ∈ positions tables first)
    (inSecond : position ∈ positions tables second) : first = second := by
  rw [mem_positions_iff] at inFirst inSecond
  exact Option.some.inj (inFirst.symm.trans inSecond)

/-! ### Groups -/

theorem numbers_cons_self (table : Table) (number : Nat)
    (others : List (Table × Nat)) :
    numbers ((table, number) :: others) table = number :: numbers others table := by
  simp [numbers]

theorem numbers_cons_ne {table other : Table} (differ : other ≠ table) (number : Nat)
    (others : List (Table × Nat)) :
    numbers ((table, number) :: others) other =
      numbers (others.filter fun entry => entry.1 != table) other := by
  rw [numbers, numbers, List.filter_cons_of_neg (by simpa using Ne.symm differ), List.filter_filter]
  congr 1
  refine List.filter_congr fun entry _ => ?_
  by_cases same : entry.1 = other
  · simp [same, differ]
  · simp [same]

theorem numbers_filter_self (table : Table) (others : List (Table × Nat)) :
    numbers (others.filter fun entry => entry.1 != table) table = [] := by
  simp [numbers, List.filter_filter]

/-- The first table comes with its twins, if it has any, and the groups of the other tables
follow. -/
theorem groups_cons (table : Table) (number : Nat) (others : List (Table × Nat)) :
    groups ((table, number) :: others) =
      if numbers others table = [] then groups (others.filter fun entry => entry.1 != table)
      else numbers ((table, number) :: others) table ::
        groups (others.filter fun entry => entry.1 != table) := by
  rw [groups, numbers_cons_self]
  simp only [numbers, List.isEmpty_iff, List.map_eq_nil_iff]

/-- There is a group for each table with at least two numbers. -/
theorem mem_groups_iff {numbered : List (Table × Nat)} {group : List Nat} :
    group ∈ groups numbered ↔ ∃ table, group = numbers numbered table ∧ 2 ≤ group.length := by
  induction numbered using byTable with
  | nil =>
    refine iff_of_false (by simp [groups]) ?_
    rintro ⟨table, rfl, many⟩
    exact absurd many (by simp [numbers])
  | cons table number others inductionHypothesis =>
    have twoMembers : numbers others table ≠ [] ↔
        2 ≤ (numbers ((table, number) :: others) table).length := by
      rw [numbers_cons_self, List.length_cons, ← List.length_pos_iff]
      omega
    have members : group ∈ groups ((table, number) :: others) ↔
        (group = numbers ((table, number) :: others) table ∧ 2 ≤ group.length) ∨
          group ∈ groups (others.filter fun entry => entry.1 != table) := by
      rw [groups_cons]
      split
      · next none =>
        refine (or_iff_right ?_).symm
        rintro ⟨rfl, many⟩
        exact twoMembers.mpr many none
      · next some =>
        rw [List.mem_cons]
        exact or_congr_left ⟨fun equal => ⟨equal, equal ▸ twoMembers.mp some⟩, And.left⟩
    rw [members, inductionHypothesis]
    constructor
    · rintro (⟨rfl, many⟩ | ⟨other, rfl, many⟩)
      · exact ⟨table, rfl, many⟩
      · have differ : other ≠ table := by
          rintro rfl
          rw [numbers_filter_self] at many
          cases many
        exact ⟨other, (numbers_cons_ne differ number others).symm, many⟩
    · rintro ⟨other, rfl, many⟩
      by_cases same : other = table
      · exact Or.inl ⟨by rw [same], many⟩
      · exact Or.inr ⟨other, numbers_cons_ne same number others, many⟩

theorem pairwise_groups {numbered : List (Table × Nat)} (ascend : Ascend numbered) :
    (groups numbered).Pairwise Precedes := by
  induction numbered using byTable with
  | nil => simp [groups]
  | cons table number others inductionHypothesis =>
    obtain ⟨first, rest⟩ := List.pairwise_cons.mp ascend
    have later := inductionHypothesis (rest.filter _)
    rw [groups_cons]
    split
    · exact later
    · refine List.pairwise_cons.mpr ⟨fun group member => ?_, later⟩
      obtain ⟨other, equal, many⟩ := mem_groups_iff.mp member
      obtain ⟨next, rest, rfl⟩ := List.exists_cons_of_length_pos (Nat.zero_lt_of_lt many)
      refine ⟨number, by rw [numbers_cons_self]; rfl, next, rfl, first (other, next) ?_⟩
      exact List.mem_of_mem_filter (mem_numbers_iff.mp (equal ▸ List.mem_cons_self))

/-! ### Classes -/

variable {tables : List Table} {groups : List (List Nat)}

/-- A table with two positions has a class, of which both are members. -/
theorem isClass_positions {table : Table} {position other : Nat} (differ : position ≠ other)
    (holds : tableAt? tables position = some table) (twin : tableAt? tables other = some table) :
    IsClass tables (positions tables table) := by
  refine ⟨table, rfl, ?_⟩
  have subset : [position, other] ⊆ positions tables table := by
    simp [mem_positions_iff, holds, twin]
  exact ((List.subperm_of_subset (by simpa using differ) subset).length_le)

theorem areClasses_of_mem_iff (members : ∀ group, group ∈ groups ↔ IsClass tables group)
    (precede : groups.Pairwise Precedes) : AreClasses tables groups := by
  have nodup : ∀ group ∈ groups, group.Nodup := by
    intro group member
    obtain ⟨table, rfl, _⟩ := (members group).mp member
    exact (pairwise_positions tables table).nodup
  have differ : groups.Pairwise fun first second =>
      ∀ position ∈ first, ∀ other ∈ second, tableAt? tables position ≠ tableAt? tables other := by
    refine precede.imp_of_mem fun inGroups alsoInGroups precedes position inFirst other inSecond
      same => ?_
    obtain ⟨first, rfl, _⟩ := (members _).mp inGroups
    obtain ⟨second, rfl, _⟩ := (members _).mp alsoInGroups
    rw [mem_positions_iff] at inFirst inSecond
    obtain rfl := Option.some.inj (inFirst.symm.trans (same.trans inSecond))
    exact asymm precedes precedes
  refine ⟨fun group member => ?_, fun group member => ?_, fun group member => ?_, differ,
    fun position other table distinct holds twin => ?_, precede⟩
  · obtain ⟨_, _, many⟩ := (members group).mp member
    exact many
  · obtain ⟨table, rfl, _⟩ := (members group).mp member
    exact pairwise_positions tables table
  · obtain ⟨table, rfl, _⟩ := (members group).mp member
    exact ⟨table, fun position => mem_positions_iff⟩
  · refine List.count_eq_one_of_mem (List.nodup_flatten.mpr ⟨nodup, differ.imp ?_⟩)
      (List.mem_flatten.mpr ⟨_, (members _).mpr (isClass_positions distinct holds twin),
        mem_positions_iff.mpr holds⟩)
    exact fun apart position inFirst inSecond => apart position inFirst position inSecond rfl

/-- The groups contain every class, and nothing else. -/
theorem AreClasses.mem_iff (classes : AreClasses tables groups) {group : List Nat} :
    group ∈ groups ↔ IsClass tables group := by
  have isPositions : ∀ group ∈ groups, ∃ table, group = positions tables table := by
    intro group member
    obtain ⟨table, all⟩ := classes.exists_table group member
    exact ⟨table, eq_of_pairwise (classes.ascend group member) (pairwise_positions tables table)
      fun position => (all position).trans mem_positions_iff.symm⟩
  constructor
  · intro member
    obtain ⟨table, equal⟩ := isPositions group member
    exact ⟨table, equal, classes.two_le_length group member⟩
  · rintro ⟨table, rfl, many⟩
    obtain ⟨position, others, equal⟩ := List.exists_cons_of_length_pos (Nat.zero_lt_of_lt many)
    rw [equal, List.length_cons] at many
    obtain ⟨other, rest, rfl⟩ := List.exists_cons_of_length_pos (Nat.lt_of_succ_lt_succ many)
    have ascends := pairwise_positions tables table
    -- The first member of the class has a twin, so it is in a group, which is no other class.
    have holds : position ∈ positions tables table := by simp [equal]
    have twin : other ∈ positions tables table := by simp [equal]
    rw [equal] at ascends
    have less := List.rel_of_pairwise_cons ascends List.mem_cons_self
    have once := classes.count_eq_one position other table (Nat.ne_of_lt less)
      (mem_positions_iff.mp holds) (mem_positions_iff.mp twin)
    obtain ⟨group, member, inGroup⟩ :=
      List.mem_flatten.mp (List.count_pos_iff.mp (once ▸ Nat.one_pos))
    obtain ⟨same, rfl⟩ := isPositions group member
    rwa [eq_of_mem_positions holds inGroup]

/-- There is only one way to list the classes. -/
theorem AreClasses.unique {others : List (List Nat)} (classes : AreClasses tables groups)
    (same : AreClasses tables others) : groups = others :=
  eq_of_pairwise classes.precede same.precede fun _ => classes.mem_iff.trans same.mem_iff.symm

/-- Equal tables are grouped into their classes. -/
theorem areClasses_equivalent (tables : List Table) :
    AreClasses tables (equivalent tables) :=
  areClasses_of_mem_iff (fun _ => mem_groups_iff) (pairwise_groups (ascend_zipIdx tables 1))

/-- Two positions are in one group exactly if they hold equal tables. -/
theorem shareGroup_equivalent_iff {first second : Nat} (differ : first ≠ second) :
    ShareGroup (equivalent tables) first second ↔
      ∃ table, tableAt? tables first = some table ∧ tableAt? tables second = some table := by
  have classes := areClasses_equivalent tables
  constructor
  · rintro ⟨group, member, inFirst, inSecond⟩
    obtain ⟨table, all⟩ := classes.exists_table group member
    exact ⟨table, (all first).mp inFirst, (all second).mp inSecond⟩
  · rintro ⟨table, holds, twin⟩
    exact ⟨_, classes.mem_iff.mpr (isClass_positions differ holds twin),
      mem_positions_iff.mpr holds, mem_positions_iff.mpr twin⟩

/-- Tables that all differ are in no group. -/
theorem equivalent_of_nodup (nodup : tables.Nodup) : equivalent tables = [] := by
  refine List.eq_nil_iff_forall_not_mem.mpr fun group member => ?_
  obtain ⟨table, rfl, many⟩ := mem_groups_iff.mp member
  have once : (numbers (tables.zipIdx 1) table).length = tables.count table := by
    rw [numbers, List.length_map, ← List.countP_eq_length_filter, List.count]
    conv_rhs => rw [← List.zipIdx_map_fst 1 tables, List.countP_map]
    rfl
  rw [once] at many
  exact absurd (List.nodup_iff_count_le_one.mp nodup table) (by omega)

end Combinational.LookupTable
