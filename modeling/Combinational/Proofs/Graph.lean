/-
This file describes the graph of the references between gates.

A gate reads another one if it references it, whether or not evaluation uses the reference. A
circuit is acyclic if no gate reads itself through a chain of gates. An evaluation order lists the
gates so that each one comes after those that it reads, and only acyclic circuits have one.

Conversely, the gates of an acyclic circuit cannot all be waiting for each other: among any of them
there is one that none of them reads.
-/

import Combinational.Circuit.Basic
import Mathlib.Data.Fintype.EquivFin
import Mathlib.Data.Fintype.Sets
import Mathlib.Data.List.Nodup
import Mathlib.Logic.Relation
import Mathlib.Order.WellFounded

namespace Combinational

open Relation

/-! ### Finite relations without loops -/

/-- Among finitely many things there is one that none of them is related to, unless the relation
has a loop. -/
theorem exists_unrelated {Thing : Type} {related : Thing → Thing → Prop}
    (loopless : ∀ thing, ¬ TransGen related thing thing) {things : List Thing}
    (nonempty : things ≠ []) :
    ∃ thing ∈ things, ∀ other ∈ things, ¬ related other thing := by
  classical
  let chain (first second : {thing // thing ∈ things}) : Prop :=
    TransGen related first.val second.val
  have transitive : IsTrans _ chain := ⟨fun _ _ _ first second => first.trans second⟩
  have irreflexive : Std.Irrefl chain := ⟨fun thing => loopless thing.val⟩
  have finite : Finite {thing // thing ∈ things} := Finite.of_fintype _
  have wellFounded : WellFounded chain := Finite.wellFounded_of_trans_of_irrefl chain
  obtain ⟨first, member⟩ := List.exists_mem_of_ne_nil things nonempty
  obtain ⟨thing, _, minimal⟩ := wellFounded.has_min Set.univ ⟨⟨first, member⟩, trivial⟩
  refine ⟨thing.val, thing.property, fun other otherMember relates => ?_⟩
  exact minimal ⟨other, otherMember⟩ trivial (TransGen.single relates)

/-- If what a thing is related to always has a lower rank, the relation has no loop. -/
theorem loopless_of_rank {Thing : Type} {related : Thing → Thing → Prop} (rank : Thing → Nat)
    (lower : ∀ first second, related first second → rank second < rank first) (thing : Thing) :
    ¬ TransGen related thing thing := by
  have descending : ∀ {last : Thing}, TransGen related thing last → rank last < rank thing := by
    intro last chain
    induction chain with
    | single relates => exact lower _ _ relates
    | tail _ relates inductionHypothesis => exact (lower _ _ relates).trans inductionHypothesis
  exact fun loop => Nat.lt_irrefl _ (descending loop)

/-- Lists in the same strict order are equal if they have the same members. -/
theorem eq_of_pairwise {Member : Type} {before : Member → Member → Prop} [Std.Asymm before]
    {first second : List Member} (firstOrdered : first.Pairwise before)
    (secondOrdered : second.Pairwise before) (members : ∀ member, member ∈ first ↔ member ∈ second) :
    first = second := by
  have perm := (List.perm_ext_iff_of_nodup firstOrdered.nodup secondOrdered.nodup).mpr members
  exact perm.eq_of_pairwise (fun _ _ _ _ precedes follows => (asymm precedes follows).elim)
    firstOrdered secondOrdered

namespace Circuit

/-! ### Gates that read gates -/

/-- Whether one gate of the circuit references another one, or itself. -/
def Reads (circuit : Circuit) (consumer source : DeviceId) : Prop :=
  consumer ∈ circuit.gates ∧ source ∈ circuit.gates ∧ source ∈ circuit.references consumer

/-- No gate reads itself, directly or through other gates. -/
def IsAcyclic (circuit : Circuit) : Prop :=
  ∀ gate, ¬ TransGen circuit.Reads gate gate

/-- An order of the gates in which each one comes after those that it reads. -/
structure IsEvaluationOrder (circuit : Circuit) (order : List DeviceId) : Prop where
  /-- No gate is repeated. -/
  nodup : order.Nodup
  /-- The gates are ordered, all of them and nothing else. -/
  mem_iff : ∀ id, id ∈ order ↔ id ∈ circuit.gates
  /-- What a gate reads comes before it. -/
  before : ∀ consumer source, circuit.Reads consumer source →
    order.idxOf source < order.idxOf consumer

theorem reads_congr {circuit other : Circuit} (gates : other.gates = circuit.gates)
    (references : ∀ gate ∈ circuit.gates, other.references gate = circuit.references gate)
    {consumer source : DeviceId} : other.Reads consumer source ↔ circuit.Reads consumer source := by
  unfold Reads
  rw [gates]
  constructor
  · rintro ⟨consumerMember, sourceMember, member⟩
    rw [references consumer consumerMember] at member
    exact ⟨consumerMember, sourceMember, member⟩
  · rintro ⟨consumerMember, sourceMember, member⟩
    rw [← references consumer consumerMember] at member
    exact ⟨consumerMember, sourceMember, member⟩

namespace IsEvaluationOrder

theorem congr {circuit other : Circuit} {order : List DeviceId}
    (ordered : circuit.IsEvaluationOrder order) (gates : other.gates = circuit.gates)
    (references : ∀ gate ∈ circuit.gates, other.references gate = circuit.references gate) :
    other.IsEvaluationOrder order where
  nodup := ordered.nodup
  mem_iff id := by rw [gates]; exact ordered.mem_iff id
  before consumer source reads :=
    ordered.before consumer source ((reads_congr gates references).mp reads)

variable {circuit : Circuit} {order : List DeviceId} (ordered : circuit.IsEvaluationOrder order)

include ordered

theorem mem_before {earlier later : List DeviceId} {consumer source : DeviceId}
    (split : order = earlier ++ consumer :: later) (reads : circuit.Reads consumer source) :
    source ∈ earlier := by
  have less := ordered.before consumer source reads
  have distinct := ordered.nodup
  rw [split] at less distinct
  have absent : consumer ∉ earlier := fun member =>
    (List.nodup_append.mp distinct).2.2 consumer member consumer List.mem_cons_self rfl
  rw [List.idxOf_append_of_notMem absent, List.idxOf_cons_self] at less
  by_contra missing
  rw [List.idxOf_append_of_notMem missing] at less
  omega

theorem isAcyclic : circuit.IsAcyclic :=
  loopless_of_rank order.idxOf ordered.before

end IsEvaluationOrder

end Circuit

end Combinational
