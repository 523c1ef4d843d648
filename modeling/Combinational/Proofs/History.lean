/-
This file describes the circuits that operations can produce.

A history is any sequence of operations with any arguments, starting from the empty circuit. An
operation that fails is part of it, with the change that it made before it failed. As long as there
are fewer devices than identifiers, the lists of every such circuit describe its arena.
-/

import Combinational.Proofs.Moves

namespace Combinational

open Relation

/-! ### Operations -/

/-- The operations that change a circuit. -/
inductive Operation
  /-- Adds an input pin. -/
  | addInput
  /-- Adds several input pins. -/
  | addInputs (count : Nat)
  /-- Adds an unconnected gate. -/
  | addGate (kind : GateKind)
  /-- Adds an output pin that forwards a source. -/
  | addOutput (source : DeviceId)
  /-- Appends a reference. -/
  | connect (id source : DeviceId)
  /-- Assigns one input pin. -/
  | setInput (number : Nat) (value : Bool)
  /-- Assigns all the input pins. -/
  | setInputs (values : List Bool)
  /-- Sorts the gates. -/
  | sort
  /-- Computes the truth table. -/
  | truthTable
  /-- Computes the output functions. -/
  | outputFunctions

/-- The changed circuit, or the same one after a failure. -/
def Circuit.orUnchanged (circuit : Circuit) :
    Except Misuse Circuit → Except Misuse Unit × Circuit
  | .ok changed => (.ok (), changed)
  | .error misuse => (.error misuse, circuit)

/-- Performs an operation. Answers whether it was misused, and the circuit that it leaves. A loop
that sorting finds is not a misuse. -/
def Operation.perform (circuit : Circuit) : Operation → Except Misuse Unit × Circuit
  | addInput => (.ok (), circuit.addInput.2)
  | addInputs count => (.ok (), circuit.addInputs count)
  | addGate kind => (.ok (), (circuit.addGate kind).2)
  | addOutput source => ((circuit.addOutput source).1.map fun _ => (), (circuit.addOutput source).2)
  | connect id source => circuit.orUnchanged (circuit.connect id source)
  | setInput number value => circuit.orUnchanged (circuit.setInput number value)
  | setInputs values => circuit.orUnchanged (circuit.setInputs values)
  | sort =>
    match circuit.sort with
    | .ok sorted => (.ok (), sorted)
    | .error _ => (.ok (), circuit)
  | truthTable => (circuit.truthTable.1.map fun _ => (), circuit.truthTable.2)
  | outputFunctions => (circuit.outputFunctions.1.map fun _ => (), circuit.outputFunctions.2)

namespace Circuit

/-- The circuit results from some operations, of which any may have failed. -/
inductive Reachable : Circuit → Prop
  /-- The empty circuit. -/
  | empty : Reachable empty
  /-- One more operation. -/
  | perform {circuit : Circuit} (operation : Operation) (reachable : Reachable circuit) :
    Reachable (operation.perform circuit).2

/-- The circuit that a sequence of operations produces. -/
def ofOperations (operations : List Operation) : Circuit :=
  operations.foldl (fun circuit operation => (operation.perform circuit).2) empty

theorem reachable_ofOperations (operations : List Operation) :
    (ofOperations operations).Reachable := by
  have further : ∀ (operations : List Operation) (circuit : Circuit), circuit.Reachable →
      (operations.foldl (fun circuit operation => (operation.perform circuit).2) circuit).Reachable
      := by
    intro operations
    induction operations with
    | nil => exact fun _ reachable => reachable
    | cons operation operations inductionHypothesis =>
      exact fun _ reachable => inductionHypothesis _ (reachable.perform operation)
  exact further operations empty Reachable.empty

theorem moves_orUnchanged {circuit : Circuit} {answer : Except Misuse Circuit}
    (moves : ∀ changed, answer = .ok changed → ReflTransGen Move circuit changed) :
    ReflTransGen Move circuit (circuit.orUnchanged answer).2 := by
  cases answer with
  | error misuse => exact ReflTransGen.refl
  | ok changed => exact moves changed rfl

/-- Every operation is a series of moves. Only an added output pin needs an identifier of its
own for that. -/
theorem moves_perform {circuit : Circuit} (operation : Operation)
    (small : ∀ source, operation = .addOutput source → circuit.devices.size < UInt32.size) :
    ReflTransGen Move circuit (operation.perform circuit).2 := by
  cases operation with
  | addInput => exact ReflTransGen.single (Move.addInput circuit)
  | addInputs count => exact moves_addInputs circuit count
  | addGate kind => exact ReflTransGen.single (Move.addGate circuit kind)
  | addOutput source => exact moves_addOutput (small source rfl) source
  | connect id source =>
    exact moves_orUnchanged fun _ succeeds => ReflTransGen.single (move_of_connect succeeds)
  | setInput number value =>
    exact moves_orUnchanged fun _ succeeds => ReflTransGen.single (assigns_of_setInput succeeds).move
  | setInputs values =>
    exact moves_orUnchanged fun _ succeeds => moves_of_assigns (assigns_of_setInputs succeeds)
  | sort =>
    cases sorts : circuit.sort with
    | error failure =>
      simp only [Operation.perform, sorts]
      exact ReflTransGen.refl
    | ok sorted =>
      simp only [Operation.perform, sorts]
      exact ReflTransGen.single (Move.sort sorts)
  | truthTable => exact moves_of_assigns (assigns_truthTable circuit)
  | outputFunctions => exact moves_of_assigns (assigns_outputFunctions circuit)

theorem size_addOutput (circuit : Circuit) (source : DeviceId) :
    (circuit.addOutput source).2.devices.size = circuit.devices.size + 1 := by
  unfold addOutput
  simp only
  split
  · next connects =>
    obtain ⟨_, _, _, _, _, rfl⟩ := connect_eq_ok_iff.mp connects
    simp [withReference]
  · simp

/-- No operation removes a device. -/
theorem size_le_perform (circuit : Circuit) (operation : Operation) :
    circuit.devices.size ≤ (operation.perform circuit).2.devices.size := by
  by_cases added : ∃ source, operation = .addOutput source
  · obtain ⟨source, rfl⟩ := added
    exact (size_addOutput circuit source).symm ▸ Nat.le_succ _
  · exact size_le_of_moves (moves_perform operation fun source equal =>
      absurd ⟨source, equal⟩ added)

/-- A small circuit that operations produce results from moves on small circuits. -/
theorem Reachable.moves {circuit : Circuit} (reachable : circuit.Reachable)
    (small : circuit.devices.size < UInt32.size) : ReflTransGen Move Circuit.empty circuit := by
  induction reachable with
  | empty => exact ReflTransGen.refl
  | perform operation _ inductionHypothesis =>
    have before := Nat.lt_of_le_of_lt (size_le_perform _ operation) small
    exact (inductionHypothesis before).trans (moves_perform operation fun _ _ => before)

/-! ### The arena along moves -/

theorem WellFormed.move {circuit next : Circuit} (wellFormed : circuit.WellFormed)
    (move : Move circuit next) (small : next.devices.size ≤ UInt32.size) : next.WellFormed := by
  cases move with
  | addInput => exact wellFormed.addInput
  | addGate kind => exact wellFormed.placeGate kind fun reference member => by cases member
  | placeStray => exact wellFormed.pushStray
  | placeOutput drives =>
    rw [size_placeOutput] at small
    exact wellFormed.placeOutput small drives
  | connect drives found added =>
    refine (wellFormed.set found (Device.sameSort_of_addReference added) ?_ ?_).withOrder _
    · intro reference member
      rw [Device.references_of_addReference added, List.mem_append, List.mem_singleton] at member
      rcases member with old | rfl
      · exact wellFormed.drives _ _ found reference old
      · exact drives
    · intro _
      rw [Device.references_of_addReference added]
      exact List.append_ne_nil_of_right_ne_nil _ (List.cons_ne_nil _ _)
  | assign found value =>
    exact wellFormed.set found ⟨rfl, rfl, rfl⟩ (fun reference member => by cases member) id
  | sort sorts =>
    obtain ⟨_, rfl⟩ := sort_eq_ok_iff.mp sorts
    exact wellFormed.withOrder _

theorem WellFormed.moves {circuit next : Circuit} (wellFormed : circuit.WellFormed)
    (moves : ReflTransGen Move circuit next) (small : next.devices.size ≤ UInt32.size) :
    next.WellFormed := by
  induction moves with
  | refl => exact wellFormed
  | tail _ move inductionHypothesis =>
    exact (inductionHypothesis (Nat.le_trans move.size_le small)).move move small

/-- The lists of a circuit describe its arena after any history. -/
theorem Reachable.wellFormed {circuit : Circuit} (reachable : circuit.Reachable)
    (small : circuit.devices.size < UInt32.size) : circuit.WellFormed :=
  wellFormed_empty.moves (reachable.moves small) (Nat.le_of_lt small)

end Circuit

end Combinational
