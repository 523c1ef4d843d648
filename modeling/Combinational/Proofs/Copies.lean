/-
This file compares circuits that have the same description.

Two such circuits keep their devices in different places, and may have different output pins. The
gates with one number nevertheless have one kind, and reference the pins and gates with the same
numbers in the same order. The values of their gates solve the same equations, so the gates with one
number have one value.
-/

import Combinational.Proofs.Equations

namespace Combinational

namespace Circuit

open Lcf

/-! ### Gates with the same number -/

section SameDescription

variable {circuit copy : Circuit} (wellFormed : circuit.WellFormed)
  (small : circuit.devices.size ≤ UInt32.size) (copyWellFormed : copy.WellFormed)
  (copySmall : copy.devices.size ≤ UInt32.size) (same : describe copy = describe circuit)

include wellFormed small copyWellFormed copySmall same

/-- The gates with one number have one kind, and their references name the same sources. -/
theorem exists_sources {position : Nat} {gate copied : DeviceId}
    (listed : circuit.gates[position]? = some gate)
    (copyListed : copy.gates[position]? = some copied) :
    ∃ kind references copiedReferences, ∃ sources : List Source,
      circuit.devices[gate.index]? = some (.gate kind references) ∧
      copy.devices[copied.index]? = some (.gate kind copiedReferences) ∧
      references.map (source? circuit) = sources.map some ∧
      copiedReferences.map (source? copy) = sources.map some := by
  obtain ⟨statement, given, _⟩ := exists_statement wellFormed small listed
  have copyGiven := given
  rw [← same] at copyGiven
  obtain ⟨_, references, listedHere, found, named⟩ :=
    (getElem?_statements_eq_some_iff wellFormed small).mp given
  obtain ⟨_, copiedReferences, listedThere, copyFound, copyNamed⟩ :=
    (getElem?_statements_eq_some_iff copyWellFormed copySmall).mp copyGiven
  obtain rfl := Option.some.inj (listed.symm.trans listedHere)
  obtain rfl := Option.some.inj (copyListed.symm.trans listedThere)
  exact ⟨statement.kind, references, copiedReferences, statement.sources, found, copyFound,
    named, copyNamed⟩

end SameDescription

/-! ### Gates with the same value -/

/-- Under every assignment of the input pins, the gates with one number have one value. -/
def HaveSameValues (circuit copy : Circuit) : Prop :=
  ∀ values : List Bool, values.length = circuit.inputCount → ∃ assigned copyAssigned,
    circuit.setInputs values = .ok assigned ∧ copy.setInputs values = .ok copyAssigned ∧
      ∀ (position : Nat) (gate copied : DeviceId), circuit.gates[position]? = some gate →
        copy.gates[position]? = some copied → ∃ value,
          assigned.deviceOutput gate = .ok value ∧ copyAssigned.deviceOutput copied = .ok value

/-- Sorted circuits with one description, in which no gate lacks a reference, have the same
values. -/
theorem haveSameValues_of_describe_eq {circuit copy : Circuit} (reachable : circuit.Reachable)
    (small : circuit.devices.size < UInt32.size) (sorted : circuit.isSorted = true)
    (copyReachable : copy.Reachable) (copySmall : copy.devices.size < UInt32.size)
    (copySorted : copy.isSorted = true) (same : describe copy = describe circuit)
    (connected : ∀ gate ∈ circuit.gates, circuit.references gate ≠ []) :
    HaveSameValues circuit copy := by
  have wellFormed := reachable.wellFormed small
  have copyWellFormed := copyReachable.wellFormed copySmall
  have copyConnected : ∀ gate ∈ copy.gates, copy.references gate ≠ [] := by
    rw [← sources_ne_nil_iff copyWellFormed copySmall.le, same]
    exact (sources_ne_nil_iff wellFormed small.le).mpr connected
  have acyclic : Statement.IsAcyclic (describe circuit).statements :=
    (isAcyclic_describe_iff wellFormed small.le).mpr
      ((reachable.hasCurrentOrder small).isEvaluationOrder sorted).isAcyclic
  intro values length
  have copyLength : values.length = copy.inputCount :=
    length.trans (congrArg Description.inputs same).symm
  obtain ⟨assigned, gates, assigns, solves, outputs⟩ := exists_solves_logic reachable small sorted
    (hasConnectedNots_of_connected connected) length
  obtain ⟨copyAssigned, copyGates, copyAssigns, copySolves, copyOutputs⟩ := exists_solves_logic
    copyReachable copySmall copySorted (hasConnectedNots_of_connected copyConnected) copyLength
  rw [same] at copySolves
  refine ⟨assigned, copyAssigned, assigns, copyAssigns, fun position gate copied listed
    copyListed => ⟨gates (position + 1), outputs (position + 1) gate listed, ?_⟩⟩
  have located : circuit.locate (.gate (position + 1)) = some gate := listed
  have numbered := Source.isDefined_gate.mp (isDefined_of_locate located)
  rw [← length_statements wellFormed small.le] at numbered
  rw [Rule.eq_of_solves (areDefined_describe wellFormed small.le) acyclic solves copySolves
    numbered]
  exact copyOutputs (position + 1) copied copyListed

end Circuit

end Combinational
