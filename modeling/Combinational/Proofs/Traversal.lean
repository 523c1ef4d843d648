/-
This file follows the traversal that sorts the gates.

While it runs, the count of a gate is the number of references to it by gates that are not placed
yet, the ready gates are exactly the unplaced ones with count zero, and each placed gate comes
after those that read it. Between two references of the gate that was placed last, the counts still
include those of its references that have not been taken away. These facts are `Consistent`.

Each step places a gate as long as one is ready. After one step per gate none is ready any more.
-/

import Combinational.Circuit.Order
import Combinational.Proofs.Arena
import Combinational.Proofs.Graph
import Mathlib.Data.List.Count
import Mathlib.Algebra.BigOperators.Group.List.Basic
import Mathlib.Algebra.GroupWithZero.Nat

namespace Combinational

namespace Circuit

/-! ### Counting references -/

theorem getElem?_foldl_modify (sources : List DeviceId) (counts : Array Nat) (position : Nat) :
    (sources.foldl (fun counts source => counts.modify source.index (· + 1)) counts)[position]? =
      counts[position]?.map (· + (sources.map DeviceId.index).count position) := by
  induction sources generalizing counts with
  | nil => simp
  | cons source sources inductionHypothesis =>
    rw [List.foldl_cons, inductionHypothesis, Array.getElem?_modify, List.map_cons,
      List.count_cons]
    by_cases equal : source.index = position
    · rw [if_pos equal, Option.map_map, if_pos (by simpa using equal)]
      refine congrArg (Option.map · _) (funext fun count => ?_)
      simp only [Function.comp_apply]
      omega
    · rw [if_neg equal, if_neg (by simpa using equal), Nat.add_zero]

theorem count_map_index (sources : List DeviceId) (id : DeviceId) :
    (sources.map DeviceId.index).count id.index = sources.count id :=
  List.count_map_of_injective sources DeviceId.index (fun _ _ => DeviceId.index_injective) id

/-- How many references of gates outside a list name a device. -/
def pendingReferences (circuit : Circuit) (placed : List DeviceId) (id : DeviceId) : Nat :=
  ((circuit.gates.toList.filter (· ∉ placed)).map fun gate =>
    (circuit.references gate).count id).sum

theorem pendingReferences_eq_zero_iff {circuit : Circuit} {placed : List DeviceId}
    {id : DeviceId} :
    circuit.pendingReferences placed id = 0 ↔
      ∀ gate ∈ circuit.gates, gate ∉ placed → id ∉ circuit.references gate := by
  unfold pendingReferences
  rw [List.sum_eq_zero_iff_forall_eq_nat, List.forall_mem_map]
  simp only [List.mem_filter, Array.mem_toList_iff, decide_eq_true_eq, List.count_eq_zero,
    and_imp]

theorem pendingReferences_nil_eq_zero_iff {circuit : Circuit} {gate : DeviceId}
    (member : gate ∈ circuit.gates) :
    circuit.pendingReferences [] gate = 0 ↔ ∀ consumer, ¬ circuit.Reads consumer gate := by
  rw [pendingReferences_eq_zero_iff]
  constructor
  · exact fun unreferenced consumer reads =>
      unreferenced consumer reads.1 List.not_mem_nil reads.2.2
  · exact fun unread consumer consumerMember _ referenced =>
      unread consumer ⟨consumerMember, member, referenced⟩

/-- Placing a gate takes its references away. -/
theorem pendingReferences_eq_add {circuit : Circuit} (distinct : circuit.gates.toList.Nodup)
    {placed : List DeviceId} {gate : DeviceId} (member : gate ∈ circuit.gates)
    (unplaced : gate ∉ placed) (id : DeviceId) :
    circuit.pendingReferences placed id =
      circuit.pendingReferences (gate :: placed) id + (circuit.references gate).count id := by
  unfold pendingReferences
  have remaining : gate ∈ circuit.gates.toList.filter (· ∉ placed) := by
    simpa [unplaced] using member
  have others : circuit.gates.toList.filter (· ∉ gate :: placed) =
      (circuit.gates.toList.filter (· ∉ placed)).erase gate := by
    rw [(distinct.filter _).erase_eq_filter, List.filter_filter]
    refine List.filter_congr fun other _ => ?_
    by_cases equal : other = gate <;> simp [equal]
  rw [others, ((List.perm_cons_erase remaining).map _).sum_eq, List.map_cons, List.sum_cons]
  exact Nat.add_comm _ _

theorem getElem?_referenceCounts (circuit : Circuit) (id : DeviceId)
    (inside : id.index < circuit.devices.size) :
    circuit.referenceCounts[id.index]? = some (circuit.pendingReferences [] id) := by
  have folded : ∀ (gates : List DeviceId) (counts : Array Nat),
      (gates.foldl (fun counts gate => (circuit.references gate).foldl
        (fun counts source => counts.modify source.index (· + 1)) counts) counts)[id.index]? =
      counts[id.index]?.map
        (· + (gates.map fun gate => (circuit.references gate).count id).sum) := by
    intro gates
    induction gates with
    | nil => simp
    | cons gate gates inductionHypothesis =>
      intro counts
      rw [List.foldl_cons, inductionHypothesis, getElem?_foldl_modify, Option.map_map,
        count_map_index, List.map_cons, List.sum_cons]
      refine congrArg (Option.map · _) (funext fun count => ?_)
      simp only [Function.comp_apply]
      omega
  unfold referenceCounts pendingReferences
  rw [← Array.foldl_toList, folded, Array.getElem?_replicate, if_pos inside, Option.map_some,
    Nat.zero_add]
  simp

theorem toList_sinks {circuit : Circuit} (wellFormed : circuit.WellFormed)
    (small : circuit.devices.size ≤ UInt32.size) :
    circuit.sinks.toList =
      circuit.gates.toList.filter fun gate => circuit.pendingReferences [] gate = 0 := by
  unfold sinks
  rw [Array.toList_filter]
  refine List.filter_congr fun gate listed => ?_
  have member := Array.mem_toList_iff.mp listed
  rw [getElem?_referenceCounts circuit gate (wellFormed.index_lt_of_mem_gates small member),
    Option.some_beq_some, beq_eq_decide]

theorem mem_sinks_iff {circuit : Circuit} (wellFormed : circuit.WellFormed)
    (small : circuit.devices.size ≤ UInt32.size) {gate : DeviceId} :
    gate ∈ circuit.sinks ↔ gate ∈ circuit.gates ∧ circuit.pendingReferences [] gate = 0 := by
  rw [← Array.mem_toList_iff, toList_sinks wellFormed small, List.mem_filter,
    Array.mem_toList_iff, decide_eq_true_eq]

/-- The sinks are the gates that no gate reads. -/
theorem mem_sinks_iff_not_reads {circuit : Circuit} (wellFormed : circuit.WellFormed)
    (small : circuit.devices.size ≤ UInt32.size) {gate : DeviceId} :
    gate ∈ circuit.sinks ↔ gate ∈ circuit.gates ∧ ∀ consumer, ¬ circuit.Reads consumer gate := by
  rw [mem_sinks_iff wellFormed small]
  exact and_congr_right fun member => pendingReferences_nil_eq_zero_iff member

/-! ### The invariant of the traversal -/

namespace Traversal

/-- What holds of a traversal while some references of the gate placed last have not been taken
away yet. -/
structure Consistent (circuit : Circuit) (unreleased : List DeviceId) (traversal : Traversal) :
    Prop where
  /-- Gates are counted by the references that have not been taken away. -/
  counts : ∀ gate ∈ circuit.gates, traversal.counts[gate.index]? =
    some (circuit.pendingReferences traversal.order gate + unreleased.count gate)
  /-- Every device has a mark. -/
  size_placed : traversal.placed.size = circuit.devices.size
  /-- The marked gates are the placed ones. -/
  isPlaced_iff : ∀ gate ∈ circuit.gates, traversal.isPlaced gate = true ↔ gate ∈ traversal.order
  /-- The unplaced gates with count zero are ready, and no others. -/
  mem_ready_iff : ∀ gate, gate ∈ traversal.ready ↔ gate ∈ circuit.gates ∧
    gate ∉ traversal.order ∧
      circuit.pendingReferences traversal.order gate + unreleased.count gate = 0
  /-- No gate is ready twice. -/
  nodup_ready : traversal.ready.Nodup
  /-- No gate is placed twice. -/
  nodup_order : traversal.order.Nodup
  /-- Only gates are placed. -/
  subset_gates : ∀ gate ∈ traversal.order, gate ∈ circuit.gates
  /-- A gate is placed in front of those that read it. -/
  consumers : ∀ consumer source, circuit.Reads consumer source → source ∈ traversal.order →
    consumer ∈ traversal.order ∧
      traversal.order.idxOf source < traversal.order.idxOf consumer
  /-- References are taken away from unplaced gates. -/
  unreleased_unplaced : ∀ source ∈ unreleased, source ∈ circuit.gates → source ∉ traversal.order

variable {circuit : Circuit} (wellFormed : circuit.WellFormed)
  (small : circuit.devices.size ≤ UInt32.size)

include wellFormed small

theorem consistent_start : Consistent circuit [] (start circuit) where
  counts gate member := by
    rw [List.count_nil, Nat.add_zero]
    exact getElem?_referenceCounts circuit gate (wellFormed.index_lt_of_mem_gates small member)
  size_placed := Array.size_replicate
  isPlaced_iff gate member := by
    have inside := wellFormed.index_lt_of_mem_gates small member
    simp [isPlaced, start, inside]
  mem_ready_iff gate := by
    show gate ∈ circuit.sinks.toList ↔ _
    rw [Array.mem_toList_iff, mem_sinks_iff wellFormed small]
    simp [start]
  nodup_ready := by
    have distinct := wellFormed.nodup_gates small
    show circuit.sinks.toList.Nodup
    unfold sinks
    rw [Array.toList_filter]
    exact distinct.filter _
  nodup_order := List.nodup_nil
  subset_gates gate member := by cases member
  consumers consumer source reads member := by cases member
  unreleased_unplaced source member := by cases member

omit wellFormed small in
/-- A pin is not counted, so nothing has to be taken away from it. -/
theorem Consistent.release_of_not_mem {traversal : Traversal} {source : DeviceId}
    {unreleased : List DeviceId} (consistent : Consistent circuit (source :: unreleased) traversal)
    (notGate : source ∉ circuit.gates) : Consistent circuit unreleased traversal := by
  have others : ∀ gate ∈ circuit.gates,
      (source :: unreleased).count gate = unreleased.count gate := fun gate member =>
    List.count_cons_of_ne fun (equal : source = gate) => notGate (equal ▸ member)
  refine { consistent with
    counts := fun gate member => ?_, mem_ready_iff := fun gate => ?_,
    unreleased_unplaced := fun other member =>
      consistent.unreleased_unplaced other (List.mem_cons_of_mem source member) }
  · rw [← others gate member]
    exact consistent.counts gate member
  · rw [consistent.mem_ready_iff]
    refine and_congr_right fun member => ?_
    rw [others gate member]

omit wellFormed small in
theorem Consistent.not_mem_ready {traversal : Traversal} {source : DeviceId}
    {unreleased : List DeviceId}
    (consistent : Consistent circuit (source :: unreleased) traversal) :
    source ∉ traversal.ready := by
  intro ready
  have zero := ((consistent.mem_ready_iff source).mp ready).2.2
  rw [List.count_cons_self] at zero
  omega

omit wellFormed small in
/-- A gate is ready once its last reference has been taken away. -/
theorem Consistent.mem_ready_release {traversal : Traversal} {source : DeviceId}
    {unreleased : List DeviceId} (consistent : Consistent circuit (source :: unreleased) traversal)
    (member : source ∈ circuit.gates) {remaining : Nat}
    (counted : remaining =
      circuit.pendingReferences traversal.order source + unreleased.count source)
    (gate : DeviceId) :
    gate ∈ (if remaining = 0 then source :: traversal.ready else traversal.ready) ↔
      gate ∈ circuit.gates ∧ gate ∉ traversal.order ∧
        circuit.pendingReferences traversal.order gate + unreleased.count gate = 0 := by
  by_cases equal : gate = source
  · have unplaced := consistent.unreleased_unplaced source List.mem_cons_self member
    have notReady := consistent.not_mem_ready
    subst equal
    split
    · next zero => exact iff_of_true List.mem_cons_self ⟨member, unplaced, counted ▸ zero⟩
    · next positive =>
      exact iff_of_false notReady fun waiting => positive (counted.trans waiting.2.2)
  · have kept : gate ∈ traversal.ready ↔ gate ∈ circuit.gates ∧ gate ∉ traversal.order ∧
        circuit.pendingReferences traversal.order gate + unreleased.count gate = 0 := by
      rw [consistent.mem_ready_iff, List.count_cons_of_ne (Ne.symm equal)]
    split
    · rw [List.mem_cons, or_iff_right equal]
      exact kept
    · exact kept

theorem Consistent.release_of_mem {traversal : Traversal} {source : DeviceId}
    {unreleased : List DeviceId} (consistent : Consistent circuit (source :: unreleased) traversal)
    (member : source ∈ circuit.gates) :
    Consistent circuit unreleased (traversal.release circuit source) := by
  have counted := consistent.counts source member
  rw [List.count_cons_self, ← Nat.add_assoc] at counted
  have inside : source.index < traversal.counts.size :=
    (Array.getElem?_eq_some_iff.mp counted).1
  unfold Traversal.release
  rw [if_pos ((wellFormed.mem_gates_iff_isGate small).mp member), counted]
  refine { consistent with
    counts := fun gate gateMember => ?_,
    mem_ready_iff := consistent.mem_ready_release member rfl, nodup_ready := ?_,
    unreleased_unplaced := fun other member =>
      consistent.unreleased_unplaced other (List.mem_cons_of_mem source member) }
  · by_cases equal : gate = source
    · subst equal
      exact Array.getElem?_setIfInBounds_self_of_lt inside
    · rw [getElem?_setIfInBounds_other equal, consistent.counts gate gateMember,
        List.count_cons_of_ne (Ne.symm equal)]
  · show (if _ = 0 then source :: traversal.ready else traversal.ready).Nodup
    split
    · exact List.nodup_cons.mpr ⟨consistent.not_mem_ready, consistent.nodup_ready⟩
    · exact consistent.nodup_ready

/-- Taking one reference away leaves the other ones to be taken away. -/
theorem Consistent.release {traversal : Traversal} {source : DeviceId}
    {unreleased : List DeviceId}
    (consistent : Consistent circuit (source :: unreleased) traversal) :
    Consistent circuit unreleased (traversal.release circuit source) := by
  by_cases member : source ∈ circuit.gates
  · exact consistent.release_of_mem wellFormed small member
  · have notGate : ¬ circuit.isGate source = true := fun isGate =>
      member ((wellFormed.mem_gates_iff_isGate small).mpr isGate)
    unfold Traversal.release
    rw [if_neg notGate]
    exact consistent.release_of_not_mem member

/-- Taking the first references away one after the other leaves the last ones. -/
theorem Consistent.foldl_release {released unreleased : List DeviceId} {traversal : Traversal}
    (consistent : Consistent circuit (released ++ unreleased) traversal) :
    Consistent circuit unreleased (released.foldl (Traversal.release circuit) traversal) := by
  induction released generalizing traversal with
  | nil => exact consistent
  | cons source released inductionHypothesis =>
    exact inductionHypothesis (consistent.release wellFormed small)

omit wellFormed small in
theorem order_release (traversal : Traversal) (source : DeviceId) :
    (traversal.release circuit source).order = traversal.order := by
  unfold Traversal.release
  split
  · split <;> rfl
  · rfl

omit wellFormed small in
theorem order_place (traversal : Traversal) (gate : DeviceId) :
    (traversal.place circuit gate).order = gate :: traversal.order := by
  have unchanged : ∀ (sources : List DeviceId) (traversal : Traversal),
      (sources.foldl (Traversal.release circuit) traversal).order = traversal.order := by
    intro sources
    induction sources with
    | nil => exact fun _ => rfl
    | cons source sources inductionHypothesis =>
      intro traversal
      rw [List.foldl_cons, inductionHypothesis, order_release]
  exact unchanged _ _

/-! ### Steps of the traversal -/

omit wellFormed small in
/-- Placing a gate marks it, and no other one. -/
theorem Consistent.isPlaced_place {traversal : Traversal} {gate other : DeviceId}
    (consistent : Consistent circuit [] traversal) (inside : gate.index < circuit.devices.size)
    (member : other ∈ circuit.gates) :
    (traversal.placed.setIfInBounds gate.index true)[other.index]? == some true ↔
      other ∈ gate :: traversal.order := by
  rw [List.mem_cons]
  by_cases equal : other = gate
  · subst equal
    rw [Array.getElem?_setIfInBounds_self_of_lt (consistent.size_placed ▸ inside)]
    simp
  · rw [getElem?_setIfInBounds_other equal, or_iff_right equal]
    exact consistent.isPlaced_iff other member

omit wellFormed small in
/-- Where every gate that reads a gate has been placed, this gate may come in front of them. -/
theorem Consistent.consumers_place {traversal : Traversal} {gate consumer source : DeviceId}
    (consistent : Consistent circuit [] traversal) (unplaced : gate ∉ traversal.order)
    (unread : ∀ consumer ∈ circuit.gates, consumer ∉ traversal.order →
      gate ∉ circuit.references consumer)
    (reads : circuit.Reads consumer source) (placed : source ∈ gate :: traversal.order) :
    consumer ∈ gate :: traversal.order ∧
      (gate :: traversal.order).idxOf source < (gate :: traversal.order).idxOf consumer := by
  have consumerPlaced : consumer ∈ traversal.order := by
    rcases List.mem_cons.mp placed with rfl | old
    · by_contra missing
      exact unread consumer reads.1 missing reads.2.2
    · exact (consistent.consumers consumer source reads old).1
  have consumerApart : gate ≠ consumer := fun equal => unplaced (equal ▸ consumerPlaced)
  refine ⟨List.mem_cons_of_mem gate consumerPlaced, ?_⟩
  rw [List.idxOf_cons_ne _ consumerApart]
  by_cases equal : gate = source
  · subst equal
    rw [List.idxOf_cons_self]
    exact Nat.succ_pos _
  · have old : source ∈ traversal.order :=
      (List.mem_cons.mp placed).resolve_left (Ne.symm equal)
    rw [List.idxOf_cons_ne _ equal]
    exact Nat.succ_lt_succ (consistent.consumers consumer source reads old).2

/-- A ready gate is read by placed gates only. Once it is placed, its references have to be taken
away. -/
theorem Consistent.mark {traversal : Traversal} {gate : DeviceId} {ready : List DeviceId}
    (consistent : Consistent circuit [] traversal) (next : traversal.ready = gate :: ready) :
    Consistent circuit (circuit.references gate) { traversal with
      placed := traversal.placed.setIfInBounds gate.index true
      ready := ready
      order := gate :: traversal.order } := by
  have waiting : gate ∈ traversal.ready := next ▸ List.mem_cons_self
  obtain ⟨member, unplaced, uncounted⟩ := (consistent.mem_ready_iff gate).mp waiting
  rw [List.count_nil, Nat.add_zero, pendingReferences_eq_zero_iff] at uncounted
  obtain ⟨notAgain, distinctReady⟩ := List.nodup_cons.mp (next ▸ consistent.nodup_ready)
  have inside := wellFormed.index_lt_of_mem_gates small member
  have pending := pendingReferences_eq_add (wellFormed.nodup_gates small) member unplaced
  refine
    { counts := fun other otherMember => ?_, size_placed := ?_,
      isPlaced_iff := fun other otherMember => consistent.isPlaced_place inside otherMember,
      mem_ready_iff := fun other => ?_, nodup_ready := distinctReady,
      nodup_order := List.nodup_cons.mpr ⟨unplaced, consistent.nodup_order⟩,
      subset_gates := List.forall_mem_cons.mpr ⟨member, consistent.subset_gates⟩,
      consumers := fun consumer source reads placed =>
        consistent.consumers_place unplaced uncounted reads placed,
      unreleased_unplaced := fun source referenced sourceMember placed => ?_ }
  · rw [← pending other]
    exact consistent.counts other otherMember
  · exact (Array.size_setIfInBounds ..).trans consistent.size_placed
  · have old := consistent.mem_ready_iff other
    rw [next, List.mem_cons, List.count_nil, Nat.add_zero, pending other] at old
    show other ∈ ready ↔ _ ∧ other ∉ gate :: traversal.order ∧ _
    rw [List.mem_cons, not_or]
    by_cases equal : other = gate
    · subst equal
      exact iff_of_false notAgain fun left => left.2.1.1 rfl
    · rw [or_iff_right equal] at old
      rw [old]
      exact and_congr_right fun _ => and_congr_left fun _ => (and_iff_right equal).symm
  · rcases List.mem_cons.mp placed with rfl | old
    · exact uncounted source member unplaced referenced
    · exact unplaced
        (consistent.consumers gate source ⟨member, sourceMember, referenced⟩ old).1

/-- A ready gate can be placed next. -/
theorem Consistent.place {traversal : Traversal} {gate : DeviceId} {ready : List DeviceId}
    (consistent : Consistent circuit [] traversal) (next : traversal.ready = gate :: ready) :
    Consistent circuit [] (Traversal.place circuit { traversal with ready := ready } gate) := by
  have marked := consistent.mark wellFormed small next
  rw [← List.append_nil (circuit.references gate)] at marked
  exact marked.foldl_release wellFormed small

omit wellFormed small in
/-- A ready gate has not been placed, so a step places it. -/
theorem Consistent.step_of_ready {traversal : Traversal} {gate : DeviceId}
    {ready : List DeviceId} (consistent : Consistent circuit [] traversal)
    (next : traversal.ready = gate :: ready) :
    traversal.step circuit =
      Traversal.place circuit { traversal with ready := ready } gate := by
  have waiting : gate ∈ traversal.ready := next ▸ List.mem_cons_self
  obtain ⟨member, unplaced, _⟩ := (consistent.mem_ready_iff gate).mp waiting
  have unmarked : ¬ traversal.isPlaced gate = true := fun marked =>
    unplaced ((consistent.isPlaced_iff gate member).mp marked)
  unfold Traversal.step
  rw [next]
  exact if_neg unmarked

omit wellFormed small in
theorem step_of_nil {traversal : Traversal} (idle : traversal.ready = []) :
    traversal.step circuit = traversal := by
  unfold Traversal.step
  rw [idle]

theorem Consistent.step {traversal : Traversal} (consistent : Consistent circuit [] traversal) :
    Consistent circuit [] (traversal.step circuit) := by
  cases next : traversal.ready with
  | nil =>
    rw [step_of_nil next]
    exact consistent
  | cons gate ready =>
    rw [consistent.step_of_ready next]
    exact consistent.place wellFormed small next

theorem Consistent.run {traversal : Traversal} (consistent : Consistent circuit [] traversal)
    (steps : Nat) : Consistent circuit [] (traversal.run circuit steps) := by
  induction steps generalizing traversal with
  | zero => exact consistent
  | succ steps inductionHypothesis =>
    exact inductionHypothesis (consistent.step wellFormed small)

omit wellFormed small in
theorem run_of_nil {traversal : Traversal} (idle : traversal.ready = []) (steps : Nat) :
    traversal.run circuit steps = traversal := by
  induction steps with
  | zero => rfl
  | succ steps inductionHypothesis =>
    rw [Traversal.run, step_of_nil idle, inductionHypothesis]

/-- A run places a gate in each step until none is ready. -/
theorem Consistent.run_progress {traversal : Traversal}
    (consistent : Consistent circuit [] traversal) (steps : Nat) :
    (traversal.run circuit steps).ready = [] ∨
      (traversal.run circuit steps).order.length = traversal.order.length + steps := by
  induction steps generalizing traversal with
  | zero => exact Or.inr rfl
  | succ steps inductionHypothesis =>
    cases next : traversal.ready with
    | nil => exact Or.inl (by rw [run_of_nil next, next])
    | cons gate ready =>
      rcases inductionHypothesis (consistent.step wellFormed small) with idle | progressed
      · exact Or.inl idle
      · refine Or.inr ?_
        rw [Traversal.run, progressed, consistent.step_of_ready next, order_place,
          List.length_cons, Nat.add_assoc, Nat.add_comm 1 steps]

omit wellFormed small in
theorem Consistent.length_order_le {traversal : Traversal} {unreleased : List DeviceId}
    (consistent : Consistent circuit unreleased traversal) :
    traversal.order.length ≤ circuit.gateCount := by
  have subset : traversal.order ⊆ circuit.gates.toList := fun gate placed =>
    Array.mem_toList_iff.mpr (consistent.subset_gates gate placed)
  exact (consistent.nodup_order.subperm subset).length_le

omit wellFormed small in
/-- A traversal that has placed as many gates as there are has placed them all. -/
theorem Consistent.mem_order_of_length_eq {traversal : Traversal} {unreleased : List DeviceId}
    (consistent : Consistent circuit unreleased traversal)
    (complete : traversal.order.length = circuit.gateCount) {gate : DeviceId}
    (member : gate ∈ circuit.gates) : gate ∈ traversal.order := by
  have subset : traversal.order ⊆ circuit.gates.toList := fun other placed =>
    Array.mem_toList_iff.mpr (consistent.subset_gates other placed)
  have all : traversal.order.Perm circuit.gates.toList :=
    (consistent.nodup_order.subperm subset).perm_of_length_le (ge_of_eq complete)
  exact all.mem_iff.mpr (Array.mem_toList_iff.mpr member)

end Traversal

/-! ### The traversal after its last step -/

variable {circuit : Circuit} (wellFormed : circuit.WellFormed)
  (small : circuit.devices.size ≤ UInt32.size)

include wellFormed small

theorem consistent_traversal : Traversal.Consistent circuit [] circuit.traversal :=
  (Traversal.consistent_start wellFormed small).run wellFormed small circuit.gateCount

theorem ready_traversal : circuit.traversal.ready = [] := by
  have consistent := consistent_traversal wellFormed small
  rcases (Traversal.consistent_start wellFormed small).run_progress wellFormed small
    circuit.gateCount with idle | progressed
  · exact idle
  · have complete : circuit.traversal.order.length = circuit.gateCount := by
      rw [traversal, progressed]
      exact Nat.zero_add _
    refine List.eq_nil_iff_forall_not_mem.mpr fun gate waiting => ?_
    obtain ⟨member, unplaced, _⟩ := (consistent.mem_ready_iff gate).mp waiting
    exact unplaced (consistent.mem_order_of_length_eq complete member)

/-- A gate is left out of the traversal only if a gate that reads it is left out too. -/
theorem exists_reads_of_not_mem_order {gate : DeviceId} (member : gate ∈ circuit.gates)
    (leftOut : gate ∉ circuit.traversal.order) :
    ∃ consumer, circuit.Reads consumer gate ∧ consumer ∉ circuit.traversal.order := by
  have consistent := consistent_traversal wellFormed small
  have notReady : gate ∉ circuit.traversal.ready := by
    rw [ready_traversal wellFormed small]
    exact List.not_mem_nil
  rw [consistent.mem_ready_iff] at notReady
  have counted : circuit.pendingReferences circuit.traversal.order gate ≠ 0 := fun zero =>
    notReady ⟨member, leftOut, zero⟩
  rw [Ne, pendingReferences_eq_zero_iff] at counted
  push Not at counted
  obtain ⟨consumer, consumerMember, consumerLeftOut, referenced⟩ := counted
  exact ⟨consumer, ⟨consumerMember, member, referenced⟩, consumerLeftOut⟩

end Circuit

end Combinational
