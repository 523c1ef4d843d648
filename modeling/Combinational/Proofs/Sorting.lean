/-
This file states what sorting the gates of a circuit achieves.

Sorting succeeds exactly on the acyclic circuits. The order that it finds is an evaluation order,
and it replaces the remembered order and nothing else. If the traversal leaves gates out, each of
them is read by another one of them, which is impossible without a loop.

After any history, the remembered order of a circuit is empty or the one that sorting finds for its
gates as they are: what changes the gates forgets it, and what keeps them has no influence on the
traversal. A circuit is sorted, therefore, only if its order is an evaluation order.
-/

import Combinational.Proofs.History
import Combinational.Proofs.Lockstep

namespace Combinational

open Relation

namespace Circuit

/-! ### Sorted circuits -/

theorem reachable_sort {circuit sorted : Circuit} (reachable : circuit.Reachable)
    (sorts : circuit.sort = .ok sorted) : sorted.Reachable := by
  have performed := reachable.perform .sort
  rw [Operation.perform, sorts] at performed
  exact performed

theorem isSorted_of_sort {circuit sorted : Circuit} (sorts : circuit.sort = .ok sorted) :
    sorted.isSorted = true := by
  obtain ⟨complete, rfl⟩ := sort_eq_ok_iff.mp sorts
  simpa [isSorted, gateCount] using complete

/-! ### Sorting and loops -/

variable {circuit : Circuit} (wellFormed : circuit.WellFormed)
  (small : circuit.devices.size ≤ UInt32.size)

include wellFormed small

theorem isEvaluationOrder_traversal
    (complete : circuit.traversal.order.length = circuit.gateCount) :
    circuit.IsEvaluationOrder circuit.traversal.order := by
  have consistent := consistent_traversal wellFormed small
  refine ⟨consistent.nodup_order, fun id => ?_, fun consumer source reads => ?_⟩
  · exact ⟨consistent.subset_gates id, consistent.mem_order_of_length_eq complete⟩
  · have placed := consistent.mem_order_of_length_eq complete reads.2.1
    exact (consistent.consumers consumer source reads placed).2

theorem isEvaluationOrder_of_sort {sorted : Circuit} (sorts : circuit.sort = .ok sorted) :
    circuit.IsEvaluationOrder sorted.order.toList := by
  obtain ⟨complete, rfl⟩ := sort_eq_ok_iff.mp sorts
  exact isEvaluationOrder_traversal wellFormed small complete

/-- The gates that the traversal leaves out contain a loop. -/
theorem length_traversal_of_isAcyclic (acyclic : circuit.IsAcyclic) :
    circuit.traversal.order.length = circuit.gateCount := by
  have consistent := consistent_traversal wellFormed small
  have placed : ∀ gate ∈ circuit.gates, gate ∈ circuit.traversal.order := by
    by_contra missing
    push Not at missing
    obtain ⟨gate, member, leftOut⟩ := missing
    let pending := circuit.gates.toList.filter (· ∉ circuit.traversal.order)
    have mem_pending : ∀ {id}, id ∈ pending ↔ id ∈ circuit.gates ∧
        id ∉ circuit.traversal.order := by
      intro id
      simp [pending]
    have nonempty : pending ≠ [] := List.ne_nil_of_mem (mem_pending.mpr ⟨member, leftOut⟩)
    obtain ⟨last, lastMember, unread⟩ := exists_unrelated acyclic nonempty
    obtain ⟨lastGate, lastLeftOut⟩ := mem_pending.mp lastMember
    obtain ⟨consumer, reads, consumerLeftOut⟩ :=
      exists_reads_of_not_mem_order wellFormed small lastGate lastLeftOut
    exact unread consumer (mem_pending.mpr ⟨reads.1, consumerLeftOut⟩) reads
  have subset : circuit.gates.toList ⊆ circuit.traversal.order := fun gate member =>
    placed gate (Array.mem_toList_iff.mp member)
  have covered := ((wellFormed.nodup_gates small).subperm subset).length_le
  exact le_antisymm consistent.length_order_le covered

theorem sorts_iff_isAcyclic : (∃ sorted, circuit.sort = .ok sorted) ↔ circuit.IsAcyclic := by
  constructor
  · rintro ⟨sorted, sorts⟩
    exact (isEvaluationOrder_of_sort wellFormed small sorts).isAcyclic
  · intro acyclic
    exact ⟨_, sort_eq_ok_iff.mpr ⟨length_traversal_of_isAcyclic wellFormed small acyclic, rfl⟩⟩

/-! ### The remembered order -/

/-- The gates and their references are kept, and so is the remembered order. -/
structure KeepsOrder (circuit next : Circuit) : Prop extends SameGates circuit next where
  order : next.order = circuit.order

omit wellFormed small in
theorem KeepsOrder.refl (circuit : Circuit) : circuit.KeepsOrder circuit :=
  ⟨SameGates.refl circuit, rfl⟩

omit wellFormed small in
theorem KeepsOrder.trans {first second third : Circuit} (keeps : first.KeepsOrder second)
    (again : second.KeepsOrder third) : first.KeepsOrder third :=
  ⟨keeps.toSameGates.trans again.toSameGates, again.order.trans keeps.order⟩

theorem keepsOrder_of_push {next : Circuit} {pushed : Device}
    (devices : next.devices = circuit.devices.push pushed) (gates : next.gates = circuit.gates)
    (order : next.order = circuit.order) : circuit.KeepsOrder next := by
  refine ⟨⟨gates, fun gate member => ?_⟩, order⟩
  obtain ⟨_, _, found⟩ := (wellFormed.mem_gates small).mp member
  have kept : next.devices[gate.index]? = some _ := devices ▸ getElem?_push_of_some found
  rw [references_of_getElem? found, references_of_getElem? kept]

theorem keepsOrder_of_set {next : Circuit} {position : Nat} {device updated : Device}
    (found : circuit.devices[position]? = some device) (notGate : device.isGate = false)
    (devices : next.devices = circuit.devices.setIfInBounds position updated)
    (gates : next.gates = circuit.gates) (order : next.order = circuit.order) :
    circuit.KeepsOrder next := by
  refine ⟨⟨gates, fun gate member => ?_⟩, order⟩
  obtain ⟨kind, references, gateFound⟩ := (wellFormed.mem_gates small).mp member
  have apart : position ≠ gate.index := by
    rintro rfl
    obtain rfl := Option.some.inj (found.symm.trans gateFound)
    cases notGate
  unfold Circuit.references
  rw [devices, Array.getElem?_setIfInBounds_ne apart]

theorem keepsOrder_of_assigns {next : Circuit} (assigns : circuit.Assigns next) :
    circuit.KeepsOrder next := by
  obtain ⟨_, held, value, found, rfl⟩ := assigns
  exact keepsOrder_of_set wellFormed small found rfl rfl rfl rfl

theorem keepsOrder_withReference {id source : DeviceId} {device extended : Device}
    (found : circuit.devices[id.index]? = some device)
    (added : device.addReference source = .ok extended) (notGate : extended.isGate = false) :
    circuit.KeepsOrder (circuit.withReference id extended) := by
  have before : device.isGate = false := by
    rw [← (Device.sameSort_of_addReference added).2.2, notGate]
  refine keepsOrder_of_set wellFormed small found before rfl rfl ?_
  rw [withReference, notGate, if_neg Bool.false_ne_true]

/-- A move that changes the graph of the gates forgets the order. -/
theorem order_of_move {next : Circuit} (move : Move circuit next) :
    next.order = #[] ∨ circuit.sort = .ok next ∨ circuit.KeepsOrder next := by
  cases move with
  | addInput | placeStray | placeOutput drives =>
    exact Or.inr (Or.inr (keepsOrder_of_push wellFormed small rfl rfl rfl))
  | addGate kind => exact Or.inl rfl
  | connect drives found added =>
    rename_i id _ device extended
    cases isGate : extended.isGate with
    | true => exact Or.inl (by rw [withReference, isGate, if_pos rfl])
    | false => exact Or.inr (Or.inr (keepsOrder_withReference wellFormed small found added isGate))
  | assign found value =>
    exact Or.inr (Or.inr (keepsOrder_of_assigns wellFormed small ⟨_, _, value, found, rfl⟩))
  | sort sorts => exact Or.inr (Or.inl sorts)

/-- An order that was found once is found again, as long as the gates are the same. -/
theorem sort_of_sameGates {sorted next : Circuit} (sorts : circuit.sort = .ok sorted)
    (same : SameGates circuit next) (order : next.order = sorted.order)
    (nextWellFormed : next.WellFormed) (nextSmall : next.devices.size ≤ UInt32.size) :
    next.sort = .ok next := by
  obtain ⟨complete, rfl⟩ := sort_eq_ok_iff.mp sorts
  have lockstep : next.traversal.order = circuit.traversal.order :=
    same.order_traversal_eq wellFormed small nextWellFormed nextSmall
  refine sort_eq_ok_iff.mpr ⟨?_, ?_⟩
  · rw [lockstep, same.gateCount_eq]
    exact complete
  · have remembered : next.order = circuit.traversal.order.toArray := order
    rw [lockstep, ← remembered]

omit wellFormed small in
/-- After any history, the remembered order is none or the one that sorting finds. -/
theorem Reachable.order_eq_empty_or_sort (reachable : circuit.Reachable)
    (small : circuit.devices.size < UInt32.size) :
    circuit.order = #[] ∨ circuit.sort = .ok circuit := by
  have moves := reachable.moves small
  clear reachable
  induction moves with
  | refl => exact Or.inl rfl
  | tail earlier move inductionHypothesis =>
    rename_i middle next
    have before := Nat.lt_of_le_of_lt move.size_le small
    have wellFormed : middle.WellFormed := wellFormed_empty.moves earlier (Nat.le_of_lt before)
    have nextWellFormed : next.WellFormed := wellFormed.move move (Nat.le_of_lt small)
    rcases order_of_move wellFormed (Nat.le_of_lt before) move with none | sorts | keeps
    · exact Or.inl none
    -- An order that was just found must be found again, now that it is remembered.
    · obtain ⟨_, rfl⟩ := sort_eq_ok_iff.mp sorts
      exact Or.inr (sort_of_sameGates wellFormed (Nat.le_of_lt before) sorts
        (SameGates.withOrder ..) rfl nextWellFormed (Nat.le_of_lt small))
    · refine (inductionHypothesis before).imp (fun none => keeps.order.trans none) fun sorts => ?_
      exact sort_of_sameGates wellFormed (Nat.le_of_lt before) sorts keeps.toSameGates keeps.order
        nextWellFormed (Nat.le_of_lt small)

omit wellFormed small in
/-- The remembered order is empty or an evaluation order. -/
def HasCurrentOrder (circuit : Circuit) : Prop :=
  circuit.order = #[] ∨ circuit.IsEvaluationOrder circuit.order.toList

omit wellFormed small in
/-- After any history, the remembered order fits the gates. -/
theorem Reachable.hasCurrentOrder (reachable : circuit.Reachable)
    (small : circuit.devices.size < UInt32.size) : circuit.HasCurrentOrder :=
  (reachable.order_eq_empty_or_sort small).imp_right fun sorts =>
    isEvaluationOrder_of_sort (reachable.wellFormed small) (Nat.le_of_lt small) sorts

omit wellFormed small in
theorem gates_eq_empty_of_isSorted (none : circuit.order = #[])
    (sorted : circuit.isSorted = true) : circuit.gates = #[] := by
  have sizes : circuit.order.size = circuit.gates.size := by simpa [isSorted] using sorted
  rw [none] at sizes
  exact Array.eq_empty_of_size_eq_zero sizes.symm

omit wellFormed small in
theorem HasCurrentOrder.isEvaluationOrder (current : circuit.HasCurrentOrder)
    (sorted : circuit.isSorted = true) : circuit.IsEvaluationOrder circuit.order.toList := by
  rcases current with none | ordered
  · have noGates := gates_eq_empty_of_isSorted none sorted
    refine ⟨by simp [none], fun id => by simp [none, noGates], fun consumer source reads => ?_⟩
    exact absurd reads.1 (by simp [noGates])
  · exact ordered

/-! ### Main statement -/

omit wellFormed small in
/-- Sorting succeeds exactly if no chain of references leads from a gate to itself. A sorted
circuit differs in its order alone, which lists every gate once and after the gates that it
references; a loop leaves the whole circuit as it was. -/
theorem sort_spec (reachable : circuit.Reachable)
    (small : circuit.devices.size < UInt32.size) :
    ((∃ sorted, circuit.sort = .ok sorted) ↔ circuit.IsAcyclic) ∧
    (∀ sorted, circuit.sort = .ok sorted →
      Operation.sort.perform circuit = (.ok (), sorted) ∧
      sorted = { circuit with order := sorted.order } ∧
      circuit.IsEvaluationOrder sorted.order.toList) ∧
    ∀ failure, circuit.sort = .error failure →
      Operation.sort.perform circuit = (.ok (), circuit) := by
  have wellFormed := reachable.wellFormed small
  refine ⟨sorts_iff_isAcyclic wellFormed (Nat.le_of_lt small), fun sorted sorts => ?_,
    fun failure fails => by simp only [Operation.perform, fails]⟩
  refine ⟨by simp only [Operation.perform, sorts], ?_,
    isEvaluationOrder_of_sort wellFormed (Nat.le_of_lt small) sorts⟩
  obtain ⟨_, rfl⟩ := sort_eq_ok_iff.mp sorts
  rfl

omit wellFormed small in
/-- Three gates declared against the flow of the signal, one of them read twice by a Not gate that
uses it once, have an evaluation order. -/
theorem isAcyclic_against_flow :
    let circuit := ofOperations [.addInput, .addGate .or, .addGate .not, .addGate .and,
      .connect (.ofIndex 1) (.ofIndex 2), .connect (.ofIndex 2) (.ofIndex 3),
      .connect (.ofIndex 2) (.ofIndex 3), .connect (.ofIndex 3) (.ofIndex 0)]
    circuit.Reachable ∧ circuit.devices.size < UInt32.size ∧ circuit.IsAcyclic := by
  intro circuit
  have reachable : circuit.Reachable := reachable_ofOperations _
  have small : circuit.devices.size < UInt32.size := by decide
  have sorts : circuit.sort =
      .ok { circuit with order := #[.ofIndex 3, .ofIndex 2, .ofIndex 1] } := by
    decide
  exact ⟨reachable, small, (sort_spec reachable small).1.mp ⟨_, sorts⟩⟩

end Circuit

end Combinational
