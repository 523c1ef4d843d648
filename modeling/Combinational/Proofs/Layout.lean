/-
This file describes where the devices of an assembled circuit are kept.

The input pins stand at the beginning of the arena and the gates follow in the order of their
statements, so the identifier of a pin or gate can be computed from its number. The output pins
stand at the end, one for each gate that no gate references. The gates read each other exactly as
their statements say.

Such a circuit can also be reached by adding unconnected gates and connecting them one reference at
a time, and so it is well formed like every reachable circuit.
-/

import Combinational.Circuit.Assembly
import Combinational.Proofs.Sorting
import Mathlib.Data.List.Induction

namespace Combinational

open Relation

namespace Circuit

/-! ### Input pins followed by gates -/

/-- The circuit with some input pins and then some gates, without output pins. -/
def arrangement (inputs : Nat) (gates : List (GateKind × List DeviceId)) : Circuit where
  devices := (List.replicate inputs (Device.inputPin false) ++
    gates.map fun gate => Device.gate gate.1 gate.2).toArray
  inputs := ((List.range inputs).map DeviceId.ofIndex).toArray
  gates := ((List.range' inputs gates.length).map DeviceId.ofIndex).toArray

theorem size_arrangement (inputs : Nat) (gates : List (GateKind × List DeviceId)) :
    (arrangement inputs gates).devices.size = inputs + gates.length := by
  simp [arrangement]

theorem getElem?_arrangement_input {inputs position : Nat} (inside : position < inputs)
    (gates : List (GateKind × List DeviceId)) :
    (arrangement inputs gates).devices[position]? = some (.inputPin false) := by
  simp [arrangement, List.getElem?_append_left, inside]

theorem getElem?_arrangement_gate (inputs : Nat) (gates : List (GateKind × List DeviceId))
    (position : Nat) : (arrangement inputs gates).devices[inputs + position]? =
      gates[position]?.map fun gate => .gate gate.1 gate.2 := by
  simp [arrangement, List.getElem?_append_right]

/-- The input pins are listed in the order of the arena. -/
theorem input_arrangement {inputs position : Nat} (inside : position < inputs)
    (gates : List (GateKind × List DeviceId)) :
    (arrangement inputs gates).input position = .ok (.ofIndex position) := by
  simp [input, entry, arrangement, inside]

/-- The gates are listed in the order of the arena. -/
theorem gate_arrangement (inputs : Nat) {gates : List (GateKind × List DeviceId)} {position : Nat}
    (inside : position < gates.length) :
    (arrangement inputs gates).gate position = .ok (.ofIndex (inputs + position)) := by
  simp [gate, entry, arrangement, inside]

theorem addInput_arrangement (inputs : Nat) :
    (arrangement inputs []).addInput.2 = arrangement (inputs + 1) [] := by
  have last : (arrangement inputs []).nextId = DeviceId.ofIndex inputs := by
    rw [nextId, size_arrangement]
    rfl
  rw [addInput, last]
  simp [arrangement, Array.replicate_succ, List.range_succ]

theorem addInputs_arrangement (inputs count : Nat) :
    (arrangement inputs []).addInputs count = arrangement (inputs + count) [] := by
  induction count generalizing inputs with
  | zero => rfl
  | succ count inductionHypothesis =>
    rw [addInputs, addInput_arrangement, inductionHypothesis]
    congr 1
    omega

theorem empty_addInputs (count : Nat) : empty.addInputs count = arrangement count [] := by
  rw [← Nat.zero_add count, ← addInputs_arrangement 0 count, Nat.zero_add]
  rfl

theorem placeGate_arrangement (inputs : Nat) (gates : List (GateKind × List DeviceId))
    (kind : GateKind) (references : List DeviceId) :
    ((arrangement inputs gates).placeGate kind references).2 =
      arrangement inputs (gates ++ [(kind, references)]) := by
  have last : (arrangement inputs gates).nextId = DeviceId.ofIndex (inputs + gates.length) := by
    rw [nextId, size_arrangement]
  rw [placeGate, last]
  simp [arrangement, List.range'_concat]

theorem mayDrive_arrangement {inputs : Nat} {gates : List (GateKind × List DeviceId)}
    {id : DeviceId} :
    MayDrive (arrangement inputs gates).devices id ↔ id.index < inputs + gates.length := by
  constructor
  · rintro ⟨device, found, _⟩
    rw [← size_arrangement inputs gates]
    exact (Array.getElem?_eq_some_iff.mp found).1
  · intro inside
    by_cases pin : id.index < inputs
    · exact ⟨_, getElem?_arrangement_input pin gates, rfl⟩
    · obtain ⟨position, index⟩ := Nat.exists_eq_add_of_le (Nat.le_of_not_lt pin)
      have listed : position < gates.length := by omega
      refine ⟨.gate gates[position].1 gates[position].2, ?_, rfl⟩
      rw [index, getElem?_arrangement_gate, List.getElem?_eq_getElem listed]
      rfl

/-- Connecting a gate of an arrangement to an input pin or a gate extends its references. -/
theorem connect_arrangement {inputs : Nat} {before after : List (GateKind × List DeviceId)}
    {kind : GateKind} {references : List DeviceId} {source : DeviceId}
    (small : inputs + before.length < UInt32.size)
    (inside : source.index < inputs + (before ++ (kind, references) :: after).length) :
    (arrangement inputs (before ++ (kind, references) :: after)).connect
      (.ofIndex (inputs + before.length)) source =
        .ok (arrangement inputs (before ++ (kind, references ++ [source]) :: after)) := by
  have atGate : (DeviceId.ofIndex (inputs + before.length)).index = inputs + before.length :=
    DeviceId.index_ofIndex_of_lt small
  refine connect_eq_ok_iff.mpr ⟨mayDrive_arrangement.mpr inside, .gate kind references,
    .gate kind (references ++ [source]), ?_, rfl, ?_⟩
  · rw [atGate, getElem?_arrangement_gate]
    simp
  · rw [withReference, atGate]
    simp [arrangement]

/-! ### Reaching an arrangement -/

/-- The gates of an arrangement, and those of its references that are not appended yet. -/
theorem reachable_arrangement_bare (inputs : Nat) (kinds : List GateKind) :
    (arrangement inputs (kinds.map fun kind => (kind, []))).Reachable := by
  induction kinds using List.reverseRecOn with
  | nil =>
    have pins := Reachable.empty.perform (.addInputs inputs)
    rw [Operation.perform, empty_addInputs] at pins
    exact pins
  | append_singleton kinds kind inductionHypothesis =>
    have placed := inductionHypothesis.perform (.addGate kind)
    rw [Operation.perform, addGate, placeGate_arrangement] at placed
    rw [List.map_append]
    exact placed

theorem reachable_connect {circuit connected : Circuit} (reachable : circuit.Reachable)
    {id source : DeviceId} (connects : circuit.connect id source = .ok connected) :
    connected.Reachable := by
  have performed := reachable.perform (.connect id source)
  rw [Operation.perform, connects] at performed
  exact performed

/-- Arrangements are reached by connecting their gates from first to last. -/
theorem reachable_arrangement {inputs : Nat} {gates : List (GateKind × List DeviceId)}
    (small : inputs + gates.length ≤ UInt32.size)
    (inside : ∀ gate ∈ gates, ∀ reference ∈ gate.2, reference.index < inputs + gates.length) :
    (arrangement inputs gates).Reachable := by
  suffices partly : ∀ (connected : List (GateKind × List DeviceId)) (bare : List GateKind),
      gates.length = connected.length + bare.length →
      (∀ gate ∈ connected, ∀ reference ∈ gate.2, reference.index < inputs + gates.length) →
      (arrangement inputs (connected ++ bare.map fun kind => (kind, []))).Reachable by
    have all := partly gates [] rfl inside
    rwa [List.map_nil, List.append_nil] at all
  intro connected
  induction connected using List.reverseRecOn with
  | nil => exact fun bare _ _ => reachable_arrangement_bare inputs bare
  | append_singleton connected last inductionHypothesis =>
    intro bare length valid
    obtain ⟨kind, references⟩ := last
    rw [List.length_append, List.length_singleton] at length
    rw [List.append_assoc, List.singleton_append]
    have validLast := valid (kind, references) (by simp)
    induction references using List.reverseRecOn with
    | nil =>
      refine inductionHypothesis (kind :: bare) ?_ ?_
      · rw [List.length_cons]
        omega
      · exact fun gate member => valid gate (List.mem_append_left _ member)
    | append_singleton references reference shorter =>
      have sooner := shorter (by
          intro gate member
          rcases List.mem_append.mp member with earlier | last
          · exact valid gate (List.mem_append_left _ earlier)
          · rw [List.mem_singleton.mp last]
            exact fun other listed => validLast other (List.mem_append_left _ listed))
        (fun other listed => validLast other (List.mem_append_left _ listed))
      refine reachable_connect sooner (connect_arrangement (by omega) ?_)
      have last := validLast reference (by simp)
      simp only [List.length_append, List.length_cons, List.length_map]
      omega

/-! ### The arrangement of statements -/

/-- The gate that a statement defines. -/
def wire (inputs : Nat) (statement : Statement) : GateKind × List DeviceId :=
  (statement.kind, statement.sources.map (Source.id inputs))

theorem wired_eq (inputs : Nat) (statements : List Statement) :
    wired inputs statements = arrangement inputs (statements.map (wire inputs)) := by
  have further : ∀ (statements : List Statement) (gates : List (GateKind × List DeviceId)),
      statements.foldl (addStatement inputs) (arrangement inputs gates) =
        arrangement inputs (gates ++ statements.map (wire inputs)) := by
    intro statements
    induction statements with
    | nil => intro gates; rw [List.map_nil, List.append_nil]; rfl
    | cons statement others inductionHypothesis =>
      intro gates
      rw [List.foldl_cons, addStatement, placeGate_arrangement, inductionHypothesis,
        List.append_assoc]
      rfl
  rw [wired, empty_addInputs, further, List.nil_append]

theorem size_wired (inputs : Nat) (statements : List Statement) :
    (wired inputs statements).devices.size = inputs + statements.length := by
  rw [wired_eq, size_arrangement, List.length_map]

theorem expose_concat (circuit : Circuit) (sources : List DeviceId) (last : DeviceId) :
    circuit.expose (sources ++ [last]).toArray =
      ((circuit.expose sources.toArray).placeOutput last).2 := by
  rw [expose, expose, List.foldl_toArray, List.foldl_toArray, List.foldl_append]
  rfl

/-- Output pins are added at the end of the arena, and nothing else changes. -/
theorem expose_eq (circuit : Circuit) (sources : List DeviceId) :
    circuit.expose sources.toArray = { circuit with
      devices := circuit.devices ++ (sources.map fun source => Device.outputPin [source]).toArray
      outputs := circuit.outputs ++
        ((List.range' circuit.devices.size sources.length).map DeviceId.ofIndex).toArray } := by
  induction sources using List.reverseRecOn with
  | nil => simp [expose]
  | append_singleton sources last inductionHypothesis =>
    rw [expose_concat, inductionHypothesis]
    simp [placeOutput, nextId, List.range'_concat, Array.push_append]

theorem size_expose (circuit : Circuit) (sources : List DeviceId) :
    (circuit.expose sources.toArray).devices.size = circuit.devices.size + sources.length := by
  rw [expose_eq]
  simp

theorem getElem?_expose {circuit : Circuit} {position : Nat}
    (inside : position < circuit.devices.size) (sources : List DeviceId) :
    (circuit.expose sources.toArray).devices[position]? = circuit.devices[position]? := by
  rw [expose_eq]
  exact Array.getElem?_append_left inside

theorem references_expose {circuit : Circuit} {id : DeviceId}
    (inside : id.index < circuit.devices.size) (sources : List DeviceId) :
    (circuit.expose sources.toArray).references id = circuit.references id := by
  unfold references
  rw [getElem?_expose inside]

theorem mayDrive_expose {circuit : Circuit} {id : DeviceId}
    (drives : MayDrive circuit.devices id) (sources : List DeviceId) :
    MayDrive (circuit.expose sources.toArray).devices id := by
  obtain ⟨device, found, notOutput⟩ := drives
  refine ⟨device, ?_, notOutput⟩
  rw [getElem?_expose (Array.getElem?_eq_some_iff.mp found).1, found]

theorem addOutput_expose {circuit : Circuit} {sources : List DeviceId} {last : DeviceId}
    (small : circuit.devices.size + sources.length < UInt32.size)
    (drives : MayDrive circuit.devices last) :
    (circuit.expose sources.toArray).addOutput last =
      (.ok (circuit.expose sources.toArray).nextId,
        circuit.expose (sources ++ [last]).toArray) := by
  rcases addOutput_cases (by rw [size_expose]; exact small) last with ⟨_, added⟩ | ⟨refused, _⟩
  · rw [added, expose_concat]
  · exact absurd (mayDrive_expose drives sources) refused

/-- Adding output pins one at a time exposes their sources. The addition is any step that succeeds
where `addOutput` does. -/
theorem foldlM_addOutput {m : Type → Type} [Monad m] [LawfulMonad m]
    {add : Circuit → DeviceId → m Circuit}
    (adds : ∀ current source id extended, current.addOutput source = (.ok id, extended) →
      add current source = pure extended)
    {circuit : Circuit} {sources : List DeviceId}
    (small : circuit.devices.size + sources.length ≤ UInt32.size)
    (drives : ∀ source ∈ sources, MayDrive circuit.devices source) :
    sources.foldlM add circuit = pure (circuit.expose sources.toArray) := by
  induction sources using List.reverseRecOn with
  | nil => rfl
  | append_singleton sources last inductionHypothesis =>
    rw [List.length_append, List.length_singleton] at small
    have sooner := inductionHypothesis (by omega)
      (fun source listed => drives source (List.mem_append_left _ listed))
    have room : circuit.devices.size + sources.length < UInt32.size := by omega
    have added := adds _ _ _ _ (addOutput_expose room (drives last (by simp)))
    rw [List.foldlM_append, sooner, pure_bind, List.foldlM_cons, added, pure_bind]
    rfl

theorem reachable_expose {circuit : Circuit} (reachable : circuit.Reachable)
    {sources : List DeviceId} (small : circuit.devices.size + sources.length ≤ UInt32.size)
    (drives : ∀ source ∈ sources, MayDrive circuit.devices source) :
    (circuit.expose sources.toArray).Reachable := by
  induction sources using List.reverseRecOn with
  | nil => exact reachable
  | append_singleton sources last inductionHypothesis =>
    rw [List.length_append, List.length_singleton] at small
    have sooner := inductionHypothesis (by omega)
      (fun source listed => drives source (List.mem_append_left _ listed))
    have room : circuit.devices.size + sources.length < UInt32.size := by omega
    have added := addOutput_expose room (drives last (by simp))
    have performed := sooner.perform (.addOutput last)
    rw [Operation.perform, added] at performed
    exact performed

end Circuit

end Combinational
