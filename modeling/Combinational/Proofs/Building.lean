/-
This file builds gates and output pins one operation at a time.

A gate is added without references and then connected to its sources, in order. If each source is
an input pin or a gate that exists already, no operation is refused, and the outcome is the gate
that is placed with all its references at once. An output pin is added in the same way. What is
built from the empty circuit like this is therefore constructed.
-/

import Combinational.Proofs.Construction

namespace Combinational

namespace Circuit

variable {circuit : Circuit}

/-! ### Gates -/

/-- The last gate may be connected to each device that could drive one before it was added. -/
theorem connect_placeGate (small : circuit.devices.size < UInt32.size) {source : DeviceId}
    (drives : MayDrive circuit.devices source) (kind : GateKind) (references : List DeviceId) :
    (circuit.placeGate kind references).2.connect circuit.nextId source =
      .ok (circuit.placeGate kind (references ++ [source])).2 := by
  have atEnd : circuit.nextId.index = circuit.devices.size := DeviceId.index_ofIndex_of_lt small
  refine connect_eq_ok_iff.mpr ⟨drives.push _, .gate kind references,
    .gate kind (references ++ [source]), ?_, rfl, ?_⟩
  · rw [atEnd]
    exact Array.getElem?_push_size
  · simp [placeGate, withReference, atEnd, setIfInBounds_push_size]

/-- A gate is connected to some sources, one after the other. The connection is any step that
succeeds where `connect` does. -/
theorem foldlM_connect {Item : Type} {step : Circuit → Item → Except Misuse Circuit}
    {source : Item → DeviceId} {items : List Item} (kind : GateKind)
    (small : circuit.devices.size < UInt32.size)
    (drives : ∀ item ∈ items, MayDrive circuit.devices (source item))
    (steps : ∀ item ∈ items, ∀ current connected : Circuit, current.inputs = circuit.inputs →
      current.connect circuit.nextId (source item) = .ok connected →
        step current item = .ok connected) :
    items.foldlM step (circuit.addGate kind).2 =
      .ok (circuit.placeGate kind (items.map source)).2 := by
  induction items using List.reverseRecOn with
  | nil => rfl
  | append_singleton items last inductionHypothesis =>
    have sooner := inductionHypothesis
      (fun item member => drives item (List.mem_append_left _ member))
      (fun item member => steps item (List.mem_append_left _ member))
    have connects := connect_placeGate small (drives last (by simp)) kind (items.map source)
    have connected := steps last (by simp) (circuit.placeGate kind (items.map source)).2 _ rfl
      connects
    rw [List.foldlM_append, sooner]
    show [last].foldlM step (circuit.placeGate kind (items.map source)).2 = _
    rw [List.foldlM_cons, connected, List.map_append]
    rfl

theorem addOutput_of_mayDrive (small : circuit.devices.size < UInt32.size) {source : DeviceId}
    (drives : MayDrive circuit.devices source) :
    circuit.addOutput source = (.ok circuit.nextId, (circuit.placeOutput source).2) := by
  rcases addOutput_cases small source with ⟨_, added⟩ | ⟨refused, _⟩
  · exact added
  · exact absurd drives refused

/-! ### Constructed circuits -/

namespace IsConstructed

theorem addInputs (constructed : circuit.IsConstructed) (count : Nat) :
    (circuit.addInputs count).IsConstructed :=
  constructed.perform (.addInputs count) rfl

theorem connect (constructed : circuit.IsConstructed) {connected : Circuit}
    {id source : DeviceId} (connects : circuit.connect id source = .ok connected) :
    connected.IsConstructed := by
  have performed := constructed.perform (.connect id source)
    (by rw [Operation.perform, connects]; rfl)
  rwa [Operation.perform, connects] at performed

theorem placeGate (constructed : circuit.IsConstructed)
    (small : circuit.devices.size < UInt32.size) (kind : GateKind) {references : List DeviceId}
    (drives : ∀ reference ∈ references, MayDrive circuit.devices reference) :
    (circuit.placeGate kind references).2.IsConstructed := by
  induction references using List.reverseRecOn with
  | nil => exact constructed.perform (.addGate kind) rfl
  | append_singleton references last inductionHypothesis =>
    exact (inductionHypothesis fun reference member =>
      drives reference (List.mem_append_left _ member)).connect
        (connect_placeGate small (drives last (by simp)) kind references)

theorem placeOutput (constructed : circuit.IsConstructed)
    (small : circuit.devices.size < UInt32.size) {source : DeviceId}
    (drives : MayDrive circuit.devices source) :
    (circuit.placeOutput source).2.IsConstructed := by
  have added := addOutput_of_mayDrive small drives
  have performed := constructed.perform (.addOutput source) (by rw [Operation.perform, added]; rfl)
  rwa [Operation.perform, added] at performed

theorem sort (constructed : circuit.IsConstructed) {sorted : Circuit}
    (sorts : circuit.sort = .ok sorted) : sorted.IsConstructed := by
  have performed := constructed.perform .sort (by rw [Operation.perform, sorts])
  rwa [Operation.perform, sorts] at performed

end IsConstructed

end Circuit

end Combinational
