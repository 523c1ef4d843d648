/-
This file states what holds before every step of the traversal that sorts the gates.

The counts, the stack, the marks and the order determine each other. It follows that the next gate
on the stack is always a new one, that a count is positive whenever a reference is taken away from
it, and that the stack is empty after at most one step per gate. No count exceeds the number of
references, so the counts are words of 32 bits if there are fewer references than such words.
-/

import Combinational.Proofs.History
import Combinational.Proofs.Traversal
import Mathlib.Algebra.Order.BigOperators.Group.List
import Mathlib.Algebra.Order.Group.Nat

namespace Combinational

namespace Circuit

/-! ### Bounded counts -/

/-- The number of references that gates hold. -/
def referenceTotal (circuit : Circuit) : Nat :=
  (circuit.gates.toList.map fun gate => (circuit.references gate).length).sum

theorem pendingReferences_le (circuit : Circuit) (placed : List DeviceId) (id : DeviceId) :
    circuit.pendingReferences placed id ≤ circuit.referenceTotal := by
  have sublist : (circuit.gates.toList.filter (· ∉ placed)).Sublist circuit.gates.toList :=
    List.filter_sublist
  calc circuit.pendingReferences placed id
      ≤ ((circuit.gates.toList.filter (· ∉ placed)).map fun gate =>
          (circuit.references gate).length).sum :=
        List.sum_le_sum fun gate _ => List.count_le_length
    _ ≤ circuit.referenceTotal := (sublist.map _).sum_le_sum fun _ _ => Nat.zero_le _

theorem size_foldl_modify (sources : List DeviceId) (counts : Array Nat) :
    (sources.foldl (fun counts source => counts.modify source.index (· + 1)) counts).size =
      counts.size := by
  induction sources generalizing counts with
  | nil => rfl
  | cons source sources inductionHypothesis =>
    rw [List.foldl_cons, inductionHypothesis, Array.size_modify]

theorem size_referenceCounts (circuit : Circuit) :
    circuit.referenceCounts.size = circuit.devices.size := by
  unfold referenceCounts
  refine Array.foldl_induction (fun _ (counts : Array Nat) => counts.size = circuit.devices.size)
    Array.size_replicate (f := fun counts gate => (circuit.references gate).foldl _ counts)
    fun _ counts size => (size_foldl_modify _ counts).trans size

namespace Traversal

/-- The traversal that has placed the next gate and not taken its references away yet. -/
def mark (traversal : Traversal) (gate : DeviceId) (rest : List DeviceId) : Traversal :=
  { traversal with
    placed := traversal.placed.setIfInBounds gate.index true
    ready := rest
    order := gate :: traversal.order }

/-- Whether no count exceeds a bound. -/
def IsBounded (traversal : Traversal) (bound : Nat) : Prop :=
  ∀ (position count : Nat), traversal.counts[position]? = some count → count ≤ bound

section Bounded

variable {circuit : Circuit} {bound : Nat} {traversal : Traversal}

theorem IsBounded.release (bounded : traversal.IsBounded bound) (source : DeviceId) :
    (traversal.release circuit source).IsBounded bound := by
  unfold Traversal.release
  split
  · split
    · next remaining counted =>
      intro position count found
      rw [Array.getElem?_setIfInBounds] at found
      split at found
      · have before := bounded _ _ counted
        split at found
        · obtain rfl := Option.some.inj found
          omega
        · cases found
      · exact bounded position count found
    · exact bounded
  · exact bounded

theorem IsBounded.foldl_release (bounded : traversal.IsBounded bound) (sources : List DeviceId) :
    (sources.foldl (Traversal.release circuit) traversal).IsBounded bound := by
  induction sources generalizing traversal with
  | nil => exact bounded
  | cons source sources inductionHypothesis => exact inductionHypothesis (bounded.release source)

/-- Steps take references away and add none. -/
theorem IsBounded.step (bounded : traversal.IsBounded bound) :
    (traversal.step circuit).IsBounded bound := by
  unfold Traversal.step
  split
  · exact bounded
  · next gate rest _ =>
    split
    · exact bounded
    · have marked : (traversal.mark gate rest).IsBounded bound := bounded
      exact marked.foldl_release _

theorem IsBounded.run (bounded : traversal.IsBounded bound) (steps : Nat) :
    (traversal.run circuit steps).IsBounded bound := by
  induction steps generalizing traversal with
  | zero => exact bounded
  | succ steps inductionHypothesis => exact inductionHypothesis bounded.step

theorem isBounded_start (small : circuit.devices.size ≤ UInt32.size) :
    (start circuit).IsBounded circuit.referenceTotal := by
  intro position count found
  have inside : position < circuit.devices.size :=
    circuit.size_referenceCounts ▸ (Array.getElem?_eq_some_iff.mp found).1
  have named : (DeviceId.ofIndex position).index = position :=
    DeviceId.index_ofIndex_of_lt (inside.trans_le small)
  have counted := getElem?_referenceCounts circuit (.ofIndex position) (named.symm ▸ inside)
  rw [named] at counted
  obtain rfl := Option.some.inj (found.symm.trans counted)
  exact circuit.pendingReferences_le [] _

end Bounded

/-! ### Before a step -/

/-- What holds of a traversal before each of its steps. -/
structure IsOrderly (circuit : Circuit) (traversal : Traversal) : Prop where
  /-- A gate is counted by the references to it of gates that are not placed. -/
  counts : ∀ gate ∈ circuit.gates, traversal.counts[gate.index]? =
    some (circuit.pendingReferences traversal.order gate)
  /-- No gate is on the stack twice. -/
  nodup_ready : traversal.ready.Nodup
  /-- Only gates with count zero that are not placed are on the stack. -/
  of_mem_ready : ∀ gate ∈ traversal.ready, gate ∈ circuit.gates ∧
    traversal.isPlaced gate = false ∧ traversal.counts[gate.index]? = some 0
  /-- All the gates with count zero that are not placed are on the stack. -/
  mem_ready : ∀ gate ∈ circuit.gates, traversal.isPlaced gate = false →
    traversal.counts[gate.index]? = some 0 → gate ∈ traversal.ready
  /-- No gate is ordered twice. -/
  nodup_order : traversal.order.Nodup
  /-- The gates that are placed are ordered. -/
  mem_order_iff : ∀ gate, gate ∈ traversal.order ↔
    gate ∈ circuit.gates ∧ traversal.isPlaced gate = true
  /-- What reads a gate was placed earlier, so it comes later in the order. -/
  consumers : ∀ before gate after, traversal.order = before ++ gate :: after →
    ∀ consumer, circuit.Reads consumer gate → consumer ∈ after

end Traversal

theorem mem_of_idxOf_lt {Member : Type} [DecidableEq Member] {before after : List Member}
    {member other : Member} (distinct : (before ++ member :: after).Nodup)
    (listed : other ∈ before ++ member :: after)
    (later : (before ++ member :: after).idxOf member <
      (before ++ member :: after).idxOf other) : other ∈ after := by
  have absent : member ∉ before := fun twice =>
    (List.nodup_append.mp distinct).2.2 member twice member List.mem_cons_self rfl
  rw [List.idxOf_append_of_notMem absent, List.idxOf_cons_self, Nat.add_zero] at later
  rcases List.mem_append.mp listed with first | rest
  · rw [List.idxOf_append_of_mem first] at later
    exact absurd (List.idxOf_lt_length_of_mem first) (Nat.lt_asymm later)
  · refine (List.mem_cons.mp rest).resolve_left ?_
    rintro rfl
    rw [List.idxOf_append_of_notMem absent, List.idxOf_cons_self] at later
    omega

namespace Traversal

variable {circuit : Circuit} {traversal : Traversal}

theorem Consistent.isOrderly (consistent : Consistent circuit [] traversal) :
    IsOrderly circuit traversal := by
  have unmarked : ∀ gate ∈ circuit.gates,
      traversal.isPlaced gate = false ↔ gate ∉ traversal.order := by
    intro gate member
    rw [← Bool.not_eq_true, consistent.isPlaced_iff gate member]
  have counted : ∀ gate ∈ circuit.gates, traversal.counts[gate.index]? =
      some (circuit.pendingReferences traversal.order gate) := consistent.counts
  have waiting : ∀ gate, gate ∈ traversal.ready ↔ gate ∈ circuit.gates ∧
      gate ∉ traversal.order ∧ circuit.pendingReferences traversal.order gate = 0 :=
    consistent.mem_ready_iff
  refine ⟨counted, consistent.nodup_ready, fun gate ready => ?_, fun gate member new zero => ?_,
    consistent.nodup_order, fun gate => ⟨fun placed => ?_, fun placed => ?_⟩,
    fun before gate after split consumer reads => ?_⟩
  · obtain ⟨member, new, zero⟩ := (waiting gate).mp ready
    exact ⟨member, (unmarked gate member).mpr new, by rw [counted gate member, zero]⟩
  · rw [counted gate member] at zero
    exact (waiting gate).mpr ⟨member, (unmarked gate member).mp new, Option.some.inj zero⟩
  · have member := consistent.subset_gates gate placed
    exact ⟨member, (consistent.isPlaced_iff gate member).mpr placed⟩
  · exact (consistent.isPlaced_iff gate placed.1).mp placed.2
  · have placed : gate ∈ traversal.order := split ▸ List.mem_append_right _ List.mem_cons_self
    obtain ⟨listed, later⟩ := consistent.consumers consumer gate reads placed
    rw [split] at listed later
    exact mem_of_idxOf_lt (split ▸ consistent.nodup_order) listed later

/-! ### Within a step -/

/-- A step places the next gate, which is a new one, and takes its references away in order. -/
theorem Consistent.step_eq (consistent : Consistent circuit [] traversal) {gate : DeviceId}
    {rest : List DeviceId} (next : traversal.ready = gate :: rest) :
    traversal.step circuit =
      (circuit.references gate).foldl (Traversal.release circuit) (traversal.mark gate rest) :=
  consistent.step_of_ready next

/-- The count of a gate is positive when a reference is taken away from it. -/
theorem Consistent.exists_remaining (wellFormed : circuit.WellFormed)
    (small : circuit.devices.size ≤ UInt32.size) (consistent : Consistent circuit [] traversal)
    {gate : DeviceId} {rest : List DeviceId} (next : traversal.ready = gate :: rest)
    {released others : List DeviceId} {source : DeviceId}
    (references : circuit.references gate = released ++ source :: others)
    (member : source ∈ circuit.gates) : ∃ remaining,
      (released.foldl (Traversal.release circuit) (traversal.mark gate rest)).counts[source.index]? =
        some (remaining + 1) := by
  have marked : Consistent circuit (released ++ source :: others) (traversal.mark gate rest) :=
    references ▸ consistent.mark wellFormed small next
  have counted := (marked.foldl_release wellFormed small).counts source member
  rw [List.count_cons_self, ← Nat.add_assoc] at counted
  exact ⟨_, counted⟩

/-! ### The number of steps -/

theorem run_add (circuit : Circuit) (traversal : Traversal) (first second : Nat) :
    traversal.run circuit (first + second) =
      (traversal.run circuit first).run circuit second := by
  induction first generalizing traversal with
  | zero => rw [Nat.zero_add, Traversal.run]
  | succ first inductionHypothesis =>
    rw [Nat.add_right_comm, Traversal.run, Traversal.run, inductionHypothesis]

end Traversal

open Traversal

/-- The traversal of a circuit after some steps. -/
def traversalAfter (circuit : Circuit) (steps : Nat) : Traversal :=
  (start circuit).run circuit steps

theorem traversalAfter_succ (circuit : Circuit) (steps : Nat) :
    circuit.traversalAfter (steps + 1) = (circuit.traversalAfter steps).step circuit :=
  run_add circuit (start circuit) steps 1

section Steps

variable {circuit : Circuit} (wellFormed : circuit.WellFormed)
  (small : circuit.devices.size ≤ UInt32.size)

include wellFormed small

theorem consistent_traversalAfter (steps : Nat) :
    Consistent circuit [] (circuit.traversalAfter steps) :=
  (consistent_start wellFormed small).run wellFormed small steps

/-- As long as the stack is not empty, each step places one gate. -/
theorem length_order_traversalAfter {steps : Nat}
    (busy : ∀ earlier < steps, (circuit.traversalAfter earlier).ready ≠ []) :
    (circuit.traversalAfter steps).order.length = steps := by
  induction steps with
  | zero => rfl
  | succ steps inductionHypothesis =>
    have earlier := inductionHypothesis fun step less => busy step (Nat.lt_succ_of_lt less)
    obtain ⟨gate, rest, next⟩ := List.exists_cons_of_ne_nil (busy steps (Nat.lt_succ_self steps))
    rw [traversalAfter_succ, (consistent_traversalAfter wellFormed small steps).step_of_ready next,
      order_place, List.length_cons, earlier]

/-- The stack is empty from some step on, before which each step has placed one gate. -/
theorem exists_iterations : ∃ iterations ≤ circuit.gateCount,
    (∀ steps, (circuit.traversalAfter steps).ready = [] ↔ iterations ≤ steps) ∧
    (∀ steps ≤ iterations, (circuit.traversalAfter steps).order.length = steps) ∧
    circuit.traversal = circuit.traversalAfter iterations := by
  have last : (circuit.traversalAfter circuit.gateCount).ready = [] :=
    ready_traversal wellFormed small
  have ends : ∃ steps, (circuit.traversalAfter steps).ready = [] := ⟨_, last⟩
  have idle : (circuit.traversalAfter (Nat.find ends)).ready = [] := Nat.find_spec ends
  have bounded : Nat.find ends ≤ circuit.gateCount := Nat.find_min' ends last
  have stays : ∀ steps, Nat.find ends ≤ steps →
      circuit.traversalAfter steps = circuit.traversalAfter (Nat.find ends) := by
    intro steps enough
    rw [← Nat.add_sub_cancel' enough]
    exact (run_add ..).trans (run_of_nil idle _)
  refine ⟨Nat.find ends, bounded, fun steps => ⟨Nat.find_min' ends, fun enough => ?_⟩,
    fun steps few => ?_, stays circuit.gateCount bounded⟩
  · rw [stays steps enough]
    exact idle
  · exact length_order_traversalAfter wellFormed small fun earlier less =>
      Nat.find_min ends (less.trans_le few)

end Steps

/-! ### Main statement -/

/-- Before every step of the traversal, the counts, the stack, the marks and the order fit each
other, and the counts are words of 32 bits. The next gate is a new one. A step places it and takes
its references away, and finds a positive count each time. After some steps, at most one per gate,
the stack is empty and sorting is done; each of them has placed one gate. -/
theorem traversal_spec {circuit : Circuit} (reachable : circuit.Reachable)
    (small : circuit.devices.size < UInt32.size) (few : circuit.referenceTotal < UInt32.size) :
    (∀ steps, IsOrderly circuit (circuit.traversalAfter steps) ∧
      (∀ (position count : Nat), (circuit.traversalAfter steps).counts[position]? = some count →
        count < UInt32.size) ∧
      ∀ gate rest, (circuit.traversalAfter steps).ready = gate :: rest →
        (circuit.traversalAfter steps).isPlaced gate = false ∧
        circuit.traversalAfter (steps + 1) = (circuit.references gate).foldl (release circuit)
          ((circuit.traversalAfter steps).mark gate rest) ∧
        ∀ released source others, circuit.references gate = released ++ source :: others →
          source ∈ circuit.gates → ∃ remaining, (released.foldl (release circuit)
            ((circuit.traversalAfter steps).mark gate rest)).counts[source.index]? =
              some (remaining + 1)) ∧
    ∃ iterations ≤ circuit.gateCount,
      (∀ steps, (circuit.traversalAfter steps).ready = [] ↔ iterations ≤ steps) ∧
      (∀ steps ≤ iterations, (circuit.traversalAfter steps).order.length = steps) ∧
      circuit.traversal = circuit.traversalAfter iterations := by
  have wellFormed := reachable.wellFormed small
  refine ⟨fun steps => ?_, exists_iterations wellFormed small.le⟩
  have consistent := consistent_traversalAfter wellFormed small.le steps
  have orderly := consistent.isOrderly
  refine ⟨orderly, fun position count found => ?_, fun gate rest next => ⟨?_, ?_, ?_⟩⟩
  · exact ((isBounded_start small.le).run steps position count found).trans_lt few
  · exact (orderly.of_mem_ready gate (next ▸ List.mem_cons_self)).2.1
  · exact (traversalAfter_succ circuit steps).trans (consistent.step_eq next)
  · exact fun released source others references member =>
      consistent.exists_remaining wellFormed small.le next references member

/-- An And gate reads an Or gate twice, and both are placed. A Not gate that reads itself is left
out, so there is a step less than there are gates. -/
theorem iterations_with_self_reference :
    let circuit := ofOperations [.addInput, .addGate .and, .addGate .or, .addGate .not,
      .connect (.ofIndex 1) (.ofIndex 2), .connect (.ofIndex 1) (.ofIndex 2),
      .connect (.ofIndex 2) (.ofIndex 0), .connect (.ofIndex 3) (.ofIndex 3)]
    circuit.Reachable ∧ circuit.devices.size < UInt32.size ∧
      circuit.referenceTotal < UInt32.size ∧
      (circuit.traversalAfter 0).ready = [.ofIndex 1] ∧
      (∃ remaining, ([DeviceId.ofIndex 2].foldl (release circuit)
        ((circuit.traversalAfter 0).mark (.ofIndex 1) [])).counts[2]? = some (remaining + 1)) ∧
      (∀ steps, (circuit.traversalAfter steps).ready = [] ↔ 2 ≤ steps) ∧
      circuit.gateCount = 3 := by
  intro circuit
  have reachable : circuit.Reachable := reachable_ofOperations _
  have small : circuit.devices.size < UInt32.size := by decide
  have few : circuit.referenceTotal < UInt32.size := by decide
  have first : (circuit.traversalAfter 0).ready = [.ofIndex 1] := by decide
  obtain ⟨before, iterations, _, idle, _, _⟩ := traversal_spec reachable small few
  have positive := ((before 0).2.2 _ _ first).2.2 [.ofIndex 2] (.ofIndex 2) [] (by decide)
    (Array.mem_toList_iff.mp (by decide))
  have two : iterations = 2 := by
    have busy := (idle 1).not.mp (by decide)
    have done := (idle 2).mp (by decide)
    omega
  exact ⟨reachable, small, few, first, positive, two ▸ idle, rfl⟩

end Circuit

end Combinational
