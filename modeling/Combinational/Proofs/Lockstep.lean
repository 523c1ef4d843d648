/-
This file compares the traversals of two circuits that have the same gates.

A traversal looks at the gates and their references, and at nothing else in the arena. Circuits that
agree in these are traversed in lockstep, therefore: after each step the same gates are ready and
the same gates have been placed. The counts need not be compared, because each of them is the number
of pending references on both sides.
-/

import Combinational.Proofs.Traversal

namespace Combinational

namespace Circuit

/-! ### Circuits with the same gates -/

/-- Another circuit has the gates of a circuit, with the same references. -/
structure SameGates (circuit other : Circuit) : Prop where
  gates : other.gates = circuit.gates
  references : ∀ gate ∈ circuit.gates, other.references gate = circuit.references gate

namespace SameGates

theorem refl (circuit : Circuit) : SameGates circuit circuit :=
  ⟨rfl, fun _ _ => rfl⟩

theorem withOrder (circuit : Circuit) (order : Array DeviceId) :
    SameGates circuit { circuit with order } :=
  ⟨rfl, fun _ _ => rfl⟩

theorem trans {first second third : Circuit} (same : SameGates first second)
    (again : SameGates second third) : SameGates first third where
  gates := again.gates.trans same.gates
  references gate member := by
    rw [again.references gate (same.gates ▸ member), same.references gate member]

variable {circuit other : Circuit} (same : SameGates circuit other)

include same

theorem gateCount_eq : other.gateCount = circuit.gateCount :=
  congrArg Array.size same.gates

theorem pendingReferences_eq (placed : List DeviceId) (id : DeviceId) :
    other.pendingReferences placed id = circuit.pendingReferences placed id := by
  unfold pendingReferences
  rw [same.gates]
  refine congrArg List.sum (List.map_congr_left fun gate remaining => ?_)
  have member := Array.mem_toList_iff.mp (List.mem_filter.mp remaining).1
  rw [same.references gate member]

end SameGates

/-! ### Traversals that look the same -/

namespace Traversal

/-- The same gates are ready and placed in two traversals. -/
structure Alike (first second : Traversal) : Prop where
  ready : second.ready = first.ready
  order : second.order = first.order

/-- A gate becomes ready when no reference to it is left, and a pin never does. -/
theorem Consistent.ready_release {circuit : Circuit} (wellFormed : circuit.WellFormed)
    (small : circuit.devices.size ≤ UInt32.size) {traversal : Traversal} {source : DeviceId}
    {unreleased : List DeviceId}
    (consistent : Consistent circuit (source :: unreleased) traversal) :
    (traversal.release circuit source).ready =
      if source ∈ circuit.gates ∧
        circuit.pendingReferences traversal.order source + unreleased.count source = 0
      then source :: traversal.ready else traversal.ready := by
  unfold Traversal.release
  by_cases member : source ∈ circuit.gates
  · have counted := consistent.counts source member
    rw [List.count_cons_self, ← Nat.add_assoc] at counted
    rw [if_pos ((wellFormed.mem_gates_iff_isGate small).mp member), counted]
    simp only [member, true_and]
  · have notGate : ¬ circuit.isGate source = true := fun isGate =>
      member ((wellFormed.mem_gates_iff_isGate small).mpr isGate)
    rw [if_neg notGate, if_neg fun both => member both.1]

section Lockstep

variable {circuit other : Circuit} (wellFormed : circuit.WellFormed)
  (small : circuit.devices.size ≤ UInt32.size) (otherWellFormed : other.WellFormed)
  (otherSmall : other.devices.size ≤ UInt32.size) (same : SameGates circuit other)
  {first second : Traversal}

include wellFormed small otherWellFormed otherSmall same

theorem Alike.release {source : DeviceId} {unreleased : List DeviceId}
    (alike : Alike first second) (consistent : Consistent circuit (source :: unreleased) first)
    (otherConsistent : Consistent other (source :: unreleased) second) :
    Alike (first.release circuit source) (second.release other source) where
  ready := by
    rw [consistent.ready_release wellFormed small,
      otherConsistent.ready_release otherWellFormed otherSmall, same.pendingReferences_eq,
      same.gates, alike.ready, alike.order]
  order := by rw [order_release, order_release, alike.order]

theorem Alike.foldl_release {unreleased : List DeviceId} (alike : Alike first second)
    (consistent : Consistent circuit unreleased first)
    (otherConsistent : Consistent other unreleased second) :
    Alike (unreleased.foldl (Traversal.release circuit) first)
      (unreleased.foldl (Traversal.release other) second) := by
  induction unreleased generalizing first second with
  | nil => exact alike
  | cons source unreleased inductionHypothesis =>
    exact inductionHypothesis
      (alike.release wellFormed small otherWellFormed otherSmall same consistent otherConsistent)
      (consistent.release wellFormed small) (otherConsistent.release otherWellFormed otherSmall)

theorem Alike.step (alike : Alike first second) (consistent : Consistent circuit [] first)
    (otherConsistent : Consistent other [] second) :
    Alike (first.step circuit) (second.step other) := by
  cases next : first.ready with
  | nil =>
    rw [step_of_nil next, step_of_nil (alike.ready.trans next)]
    exact alike
  | cons gate ready =>
    have otherNext : second.ready = gate :: ready := alike.ready.trans next
    have waiting : gate ∈ first.ready := next ▸ List.mem_cons_self
    have member := ((consistent.mem_ready_iff gate).mp waiting).1
    have marked := consistent.mark wellFormed small next
    have otherMarked := otherConsistent.mark otherWellFormed otherSmall otherNext
    rw [consistent.step_of_ready next, otherConsistent.step_of_ready otherNext, place, place]
    rw [same.references gate member] at otherMarked ⊢
    exact Alike.foldl_release wellFormed small otherWellFormed otherSmall same
      ⟨rfl, congrArg (List.cons gate) alike.order⟩ marked otherMarked

theorem Alike.run (alike : Alike first second) (consistent : Consistent circuit [] first)
    (otherConsistent : Consistent other [] second) (steps : Nat) :
    Alike (first.run circuit steps) (second.run other steps) := by
  induction steps generalizing first second with
  | zero => exact alike
  | succ steps inductionHypothesis =>
    exact inductionHypothesis
      (alike.step wellFormed small otherWellFormed otherSmall same consistent otherConsistent)
      (consistent.step wellFormed small) (otherConsistent.step otherWellFormed otherSmall)

theorem alike_start : Alike (start circuit) (start other) where
  ready := by
    show other.sinks.toList = circuit.sinks.toList
    rw [toList_sinks wellFormed small, toList_sinks otherWellFormed otherSmall, same.gates]
    simp only [same.pendingReferences_eq]
  order := rfl

end Lockstep

end Traversal

/-- Gates with the same references are placed in the same order, whatever else the arena holds. -/
theorem SameGates.order_traversal_eq {circuit other : Circuit} (same : SameGates circuit other)
    (wellFormed : circuit.WellFormed) (small : circuit.devices.size ≤ UInt32.size)
    (otherWellFormed : other.WellFormed) (otherSmall : other.devices.size ≤ UInt32.size) :
    other.traversal.order = circuit.traversal.order := by
  have alike := (Traversal.alike_start wellFormed small otherWellFormed otherSmall same).run
    wellFormed small otherWellFormed otherSmall same (Traversal.consistent_start wellFormed small)
    (Traversal.consistent_start otherWellFormed otherSmall) circuit.gateCount
  have lockstep := alike.order
  unfold traversal
  rw [same.gateCount_eq]
  exact lockstep

end Circuit

end Combinational
