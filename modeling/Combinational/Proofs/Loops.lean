/-
This file proves that a failed sort reports a gate on a loop.

The walk goes from a gate left out of the traversal to one that reads it and was left out too, and
so on. It cannot stop short, since every gate left out has such a consumer, and it cannot go on for
ever, since the gates it has seen are distinct. So it comes back to a gate that it has seen, which
is then read by a chain of gates that starts and ends with itself.

The bound on the moves is never what ends the walk: `WalksTo` describes it without one.
-/

import Combinational.Proofs.Indexing
import Combinational.Proofs.Traversal

namespace Combinational

open Relation

namespace Circuit

/-! ### The table of consumers -/

/-- Makes a gate the consumer of the devices that it references, unless it has been placed. -/
def noteConsumer (circuit : Circuit) (traversal : Traversal)
    (consumers : Array (Option DeviceId)) (gate : DeviceId) : Array (Option DeviceId) :=
  if traversal.isPlaced gate then consumers
  else (circuit.references gate).foldl
    (fun consumers source => consumers.setIfInBounds source.index (some gate)) consumers

theorem pendingConsumers_eq (circuit : Circuit) (traversal : Traversal) :
    circuit.pendingConsumers traversal = circuit.gates.toList.foldl
      (circuit.noteConsumer traversal) (Array.replicate circuit.devices.size none) := by
  rw [Array.foldl_toList]
  rfl

theorem size_foldl_setIfInBounds (sources : List DeviceId)
    (consumers : Array (Option DeviceId)) (gate : DeviceId) :
    (sources.foldl (fun consumers source => consumers.setIfInBounds source.index (some gate))
      consumers).size = consumers.size := by
  induction sources generalizing consumers with
  | nil => rfl
  | cons source others inductionHypothesis =>
    rw [List.foldl_cons, inductionHypothesis, Array.size_setIfInBounds]

theorem size_foldl_noteConsumer (circuit : Circuit) (traversal : Traversal)
    (gates : List DeviceId) (consumers : Array (Option DeviceId)) :
    (gates.foldl (circuit.noteConsumer traversal) consumers).size = consumers.size := by
  induction gates generalizing consumers with
  | nil => rfl
  | cons gate others inductionHypothesis =>
    rw [List.foldl_cons, inductionHypothesis, noteConsumer]
    split
    · rfl
    · exact size_foldl_setIfInBounds _ _ _

theorem getElem?_foldl_setIfInBounds (sources : List DeviceId)
    (consumers : Array (Option DeviceId)) (gate id : DeviceId)
    (inside : id.index < consumers.size) :
    (sources.foldl (fun consumers source => consumers.setIfInBounds source.index (some gate))
      consumers)[id.index]? = if id ∈ sources then some (some gate) else consumers[id.index]? := by
  induction sources generalizing consumers with
  | nil => simp
  | cons source others inductionHypothesis =>
    rw [List.foldl_cons, inductionHypothesis _ (by rw [Array.size_setIfInBounds]; exact inside)]
    by_cases same : id = source
    · subst same
      simp [Array.getElem?_setIfInBounds_self_of_lt inside]
    · rw [getElem?_setIfInBounds_other same]
      simp only [List.mem_cons, same, false_or]

/-- Whether a gate has not been placed and references a device. -/
def isPendingConsumer (circuit : Circuit) (traversal : Traversal) (id gate : DeviceId) : Bool :=
  !traversal.isPlaced gate && (circuit.references gate).contains id

/-- The table keeps the last pending consumer of each device. -/
theorem getElem?_pendingConsumers (circuit : Circuit) (traversal : Traversal) (id : DeviceId)
    (inside : id.index < circuit.devices.size) :
    (circuit.pendingConsumers traversal)[id.index]? =
      some (circuit.gates.toList.filter (circuit.isPendingConsumer traversal id)).getLast? := by
  rw [pendingConsumers_eq]
  induction circuit.gates.toList using List.reverseRecOn with
  | nil => simp [inside]
  | append_singleton gates last inductionHypothesis =>
    rw [List.foldl_append, List.foldl_cons, List.foldl_nil, List.filter_append, noteConsumer]
    by_cases placed : traversal.isPlaced last = true
    · have passedOver : circuit.isPendingConsumer traversal id last = false := by
        simp [isPendingConsumer, placed]
      rw [if_pos placed, inductionHypothesis]
      simp only [List.filter_cons, passedOver, List.filter_nil, List.append_nil,
        Bool.false_eq_true, if_false]
    · have size := size_foldl_noteConsumer circuit traversal gates
        (Array.replicate circuit.devices.size none)
      rw [Array.size_replicate] at size
      rw [if_neg placed, getElem?_foldl_setIfInBounds _ _ _ _ (by rw [size]; exact inside)]
      by_cases referenced : id ∈ circuit.references last
      · have pending : circuit.isPendingConsumer traversal id last = true := by
          simp [isPendingConsumer, placed, referenced]
        rw [if_pos referenced, List.filter_cons_of_pos pending, List.filter_nil,
          List.getLast?_concat]
      · have passedOver : circuit.isPendingConsumer traversal id last = false := by
          simp [isPendingConsumer, referenced]
        rw [if_neg referenced, inductionHypothesis]
        simp only [List.filter_cons, passedOver, List.filter_nil, List.append_nil,
          Bool.false_eq_true, if_false]

/-! ### Walks without a bound -/

/-- Where a walk along a table of consumers ends that makes as many moves as it needs. -/
inductive WalksTo (consumers : Array (Option DeviceId)) :
    (seen : List DeviceId) → (current last : DeviceId) → Prop
  /-- It has come back to a device that it has seen. -/
  | stop {seen : List DeviceId} {current : DeviceId} (known : current ∈ seen) :
    WalksTo consumers seen current current
  /-- It goes on from a device that it has not seen to the consumer of that device. -/
  | move {seen : List DeviceId} {current consumer last : DeviceId} (new : current ∉ seen)
      (entry : consumers[current.index]? = some (some consumer))
      (further : WalksTo consumers (current :: seen) consumer last) :
    WalksTo consumers seen current last

theorem walksTo_of_revisited {consumers : Array (Option DeviceId)} {moves : Nat}
    {seen : List DeviceId} {current last : DeviceId}
    (found : revisited? consumers moves seen current = some last) :
    WalksTo consumers seen current last := by
  induction moves generalizing seen current with
  | zero => cases found
  | succ moves inductionHypothesis =>
    unfold revisited? at found
    split at found
    · next known =>
      obtain rfl := Option.some.inj found
      exact .stop (List.contains_iff_mem.mp known)
    · next new =>
      split at found
      · next entry =>
        exact .move (fun known => new (List.contains_iff_mem.mpr known)) entry
          (inductionHypothesis found)
      · cases found

/-- A gate that is found on a loop is where the walk from the first gate left out ends. -/
theorem walksTo_of_loopingGate {circuit : Circuit} {traversal : Traversal} {gate : DeviceId}
    (found : circuit.loopingGate? traversal = some gate) :
    ∃ first, circuit.gates.find? (fun gate => !traversal.isPlaced gate) = some first ∧
      WalksTo (circuit.pendingConsumers traversal) [] first gate := by
  unfold loopingGate? at found
  split at found
  · next first leftOut => exact ⟨first, leftOut, walksTo_of_revisited found⟩
  · cases found

variable {circuit : Circuit} (wellFormed : circuit.WellFormed)
  (small : circuit.devices.size ≤ UInt32.size)

include wellFormed small

/-- The table leads from a gate that was left out to one that reads it and was left out too. -/
theorem exists_pendingConsumer {gate : DeviceId} (member : gate ∈ circuit.gates)
    (leftOut : gate ∉ circuit.traversal.order) :
    ∃ consumer, (circuit.pendingConsumers circuit.traversal)[gate.index]? = some (some consumer) ∧
      circuit.Reads consumer gate ∧ consumer ∉ circuit.traversal.order := by
  have consistent := consistent_traversal wellFormed small
  rw [getElem?_pendingConsumers circuit _ gate (wellFormed.index_lt_of_mem_gates small member)]
  cases last : (circuit.gates.toList.filter
      (circuit.isPendingConsumer circuit.traversal gate)).getLast? with
  | none =>
    obtain ⟨consumer, ⟨consumerMember, _, referenced⟩, consumerLeftOut⟩ :=
      exists_reads_of_not_mem_order wellFormed small member leftOut
    have unplaced : circuit.traversal.isPlaced consumer = false := by
      rw [← Bool.not_eq_true, consistent.isPlaced_iff consumer consumerMember]
      exact consumerLeftOut
    rw [List.getLast?_eq_none_iff, List.filter_eq_nil_iff] at last
    exact absurd (by simp [isPendingConsumer, unplaced, referenced])
      (last consumer (Array.mem_toList_iff.mpr consumerMember))
  | some consumer =>
    have listed := List.mem_of_getLast? last
    simp only [List.mem_filter, isPendingConsumer, Array.mem_toList_iff, Bool.and_eq_true,
      Bool.not_eq_true', List.contains_iff_mem] at listed
    obtain ⟨consumerMember, unplaced, referenced⟩ := listed
    refine ⟨consumer, rfl, ⟨consumerMember, member, referenced⟩, fun placed => ?_⟩
    rw [← consistent.isPlaced_iff consumer consumerMember, unplaced] at placed
    exact absurd placed Bool.false_ne_true

/-! ### The walk -/

/-- The walk comes back to a gate that it has seen, if it may make more moves than there are gates
it has not seen. -/
theorem exists_revisited {moves : Nat} {seen : List DeviceId} {current : DeviceId}
    (member : current ∈ circuit.gates) (leftOut : current ∉ circuit.traversal.order)
    (distinct : seen.Nodup)
    (chain : ∀ gate ∈ seen, gate ∈ circuit.gates ∧ TransGen circuit.Reads current gate)
    (enough : circuit.gateCount < seen.length + moves) :
    ∃ gate, revisited? (circuit.pendingConsumers circuit.traversal) moves seen current =
      some gate ∧ gate ∈ circuit.gates ∧ TransGen circuit.Reads gate gate := by
  induction moves generalizing seen current with
  | zero =>
    have subset : seen ⊆ circuit.gates.toList := fun gate listed =>
      Array.mem_toList_iff.mpr (chain gate listed).1
    have bounded : seen.length ≤ circuit.gateCount := (distinct.subperm subset).length_le
    omega
  | succ moves inductionHypothesis =>
    unfold revisited?
    by_cases known : current ∈ seen
    · rw [if_pos (List.contains_iff_mem.mpr known)]
      exact ⟨current, rfl, member, (chain current known).2⟩
    · rw [if_neg (by rw [List.contains_iff_mem]; exact known)]
      obtain ⟨consumer, entry, reads, consumerLeftOut⟩ :=
        exists_pendingConsumer wellFormed small member leftOut
      rw [entry]
      refine inductionHypothesis reads.1 consumerLeftOut
        (List.nodup_cons.mpr ⟨known, distinct⟩) ?_ (by rw [List.length_cons]; omega)
      intro gate listed
      rcases List.mem_cons.mp listed with rfl | earlier
      · exact ⟨member, TransGen.single reads⟩
      · exact ⟨(chain gate earlier).1, TransGen.head reads (chain gate earlier).2⟩

theorem exists_loopingGate (incomplete : circuit.traversal.order.length ≠ circuit.gateCount) :
    ∃ gate, circuit.loopingGate? circuit.traversal = some gate ∧ gate ∈ circuit.gates ∧
      TransGen circuit.Reads gate gate := by
  have consistent := consistent_traversal wellFormed small
  unfold loopingGate?
  cases found : circuit.gates.find? fun gate => !circuit.traversal.isPlaced gate with
  | none =>
    have all : circuit.gates.toList ⊆ circuit.traversal.order := fun gate listed => by
      have member := Array.mem_toList_iff.mp listed
      have placed := Array.find?_eq_none.mp found gate member
      rw [Bool.not_eq_true, Bool.not_eq_false'] at placed
      exact (consistent.isPlaced_iff gate member).mp placed
    have atLeast : circuit.gateCount ≤ circuit.traversal.order.length :=
      ((wellFormed.nodup_gates small).subperm all).length_le
    exact absurd (Nat.le_antisymm consistent.length_order_le atLeast) incomplete
  | some gate =>
    have member := Array.mem_of_find?_eq_some found
    have unplaced := Array.find?_some found
    have leftOut : gate ∉ circuit.traversal.order := fun placed => by
      rw [(consistent.isPlaced_iff gate member).mpr placed] at unplaced
      exact absurd unplaced (by decide)
    refine exists_revisited wellFormed small member leftOut List.nodup_nil ?_ ?_
    · intro other listed
      cases listed
    · have bounded := wellFormed.gateCount_le
      rw [List.length_nil]
      omega

/-- A sort that fails reports the number of a gate on a loop, where the walk ends. -/
theorem sort_eq_error {error : LoadError} (fails : circuit.sort = .error error) :
    ∃ gate number, error = .combinationalLoop number ∧
      circuit.loopingGate? circuit.traversal = some gate ∧
      circuit.gateNumber? gate = some number ∧ TransGen circuit.Reads gate gate := by
  unfold sort at fails
  simp only at fails
  split at fails
  · cases fails
  · next incomplete =>
    obtain ⟨gate, found, member, loop⟩ := exists_loopingGate wellFormed small incomplete
    obtain ⟨position, inside, same⟩ := Array.mem_iff_getElem.mp member
    have numbered : circuit.gateNumber? gate = some (position + 1) :=
      (wellFormed.gateNumber?_eq_some_iff small).mpr
        ⟨position, Array.getElem?_eq_some_iff.mpr ⟨inside, same⟩, rfl⟩
    rw [found, Option.bind_some, numbered] at fails
    exact ⟨gate, position + 1, (Except.error.inj fails).symm, found, numbered, loop⟩

omit wellFormed small

/-! ### Main statement -/

/-- After any history, a sort that fails reports a gate by its number. The walk from the first gate
left out ends there, and the gate reads itself, directly or through other gates. -/
theorem sort_error_spec (reachable : circuit.Reachable)
    (small : circuit.devices.size < UInt32.size) {error : LoadError}
    (fails : circuit.sort = .error error) :
    ∃ number gate first, error = .combinationalLoop number ∧
      1 ≤ number ∧ number ≤ circuit.gateCount ∧ circuit.gate (number - 1) = .ok gate ∧
      TransGen circuit.Reads gate gate ∧
      circuit.gates.find? (fun gate => !circuit.traversal.isPlaced gate) = some first ∧
      WalksTo (circuit.pendingConsumers circuit.traversal) [] first gate := by
  have wellFormed := reachable.wellFormed small
  have bounded := Nat.le_of_lt small
  obtain ⟨gate, number, rfl, found, numbered, loop⟩ := sort_eq_error wellFormed bounded fails
  have listed := (wellFormed.gateNumber?_eq_some_iff bounded).mp numbered
  obtain ⟨positive, named⟩ := exists_position_iff_entry.mp listed
  obtain ⟨position, entry, rfl⟩ := listed
  obtain ⟨inside, _⟩ := Array.getElem?_eq_some_iff.mp entry
  obtain ⟨first, leftOut, walks⟩ := walksTo_of_loopingGate found
  exact ⟨position + 1, gate, first, rfl, positive, inside, named, loop, leftOut, walks⟩

/-- The first gate only feeds the loops and the fourth one only follows them. The third one lies on
both, and one of them references it twice. -/
theorem sort_reports_shared_gate :
    let circuit := ofOperations [.addInput, .addGate .and, .addGate .or, .addGate .and,
      .addGate .not, .addGate .or, .connect (.ofIndex 1) (.ofIndex 0),
      .connect (.ofIndex 2) (.ofIndex 1), .connect (.ofIndex 2) (.ofIndex 3),
      .connect (.ofIndex 2) (.ofIndex 3), .connect (.ofIndex 3) (.ofIndex 2),
      .connect (.ofIndex 3) (.ofIndex 5), .connect (.ofIndex 4) (.ofIndex 3),
      .connect (.ofIndex 5) (.ofIndex 3)]
    circuit.Reachable ∧ circuit.devices.size < UInt32.size ∧
      circuit.sort = .error (.combinationalLoop 3) ∧ circuit.gate 2 = .ok (.ofIndex 3) ∧
      TransGen circuit.Reads (.ofIndex 3) (.ofIndex 3) := by
  intro circuit
  have reachable : circuit.Reachable := reachable_ofOperations _
  have small : circuit.devices.size < UInt32.size := by decide
  have fails : circuit.sort = .error (.combinationalLoop 3) := by decide +kernel
  obtain ⟨number, gate, first, reported, _, _, named, loop, _, _⟩ :=
    sort_error_spec reachable small fails
  obtain rfl : 3 = number := LoadError.combinationalLoop.inj reported
  have third : circuit.gate 2 = .ok (.ofIndex 3) := by decide
  obtain rfl : DeviceId.ofIndex 3 = gate := Except.ok.inj (third.symm.trans named)
  exact ⟨reachable, small, fails, third, loop⟩

end Circuit

end Combinational
