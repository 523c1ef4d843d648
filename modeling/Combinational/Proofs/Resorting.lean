/-
This file states that the remembered order of a circuit is never out of date.

Whether a circuit is sorted is decided by the length of its order alone, so an operation that changed
the gates without forgetting the order would go unnoticed. No operation does. The order of a sorted
circuit is the one that sorting finds, and sorting it again changes nothing.

This remains so until a gate is added or receives a reference. Any number of operations on the pins
may follow, failing ones included.
-/

import Combinational.Proofs.Sorting

namespace Combinational

open Relation

/-! ### Operations that leave the gates alone -/

/-- Whether an operation neither adds a gate nor connects one. Gates that refuse a reference are not
connected. -/
def Operation.SparesGates (circuit : Circuit) : Operation → Prop
  | addGate _ => False
  | connect id source =>
    circuit.isGate id = true → ∃ misuse, circuit.connect id source = .error misuse
  | addInput | addInputs _ | addOutput _ | setInput _ _ | setInputs _ | sort | truthTable
  | outputFunctions => True

namespace Circuit

/-- The circuits that some operation leads to without touching the gates. -/
def Spares (circuit next : Circuit) : Prop :=
  ∃ operation : Operation, operation.SparesGates circuit ∧ next = (operation.perform circuit).2

theorem keepsOrder_orUnchanged {circuit : Circuit} {answer : Except Misuse Circuit}
    (keeps : ∀ changed, answer = .ok changed → circuit.KeepsOrder changed) :
    circuit.KeepsOrder (circuit.orUnchanged answer).2 := by
  cases answer with
  | error misuse => exact KeepsOrder.refl circuit
  | ok changed => exact keeps changed rfl

section WellFormed

variable {circuit : Circuit} (wellFormed : circuit.WellFormed)

include wellFormed

theorem keepsOrder_addInputs {count : Nat}
    (small : (circuit.addInputs count).devices.size ≤ UInt32.size) :
    circuit.KeepsOrder (circuit.addInputs count) := by
  induction count generalizing circuit with
  | zero => exact KeepsOrder.refl circuit
  | succ count inductionHypothesis =>
    have before := Nat.le_trans (size_le_of_moves (moves_addInputs circuit (count + 1))) small
    have added : circuit.KeepsOrder circuit.addInput.2 :=
      keepsOrder_of_push wellFormed before rfl rfl rfl
    exact added.trans (inductionHypothesis wellFormed.addInput small)

theorem keepsOrder_addOutput (small : circuit.devices.size < UInt32.size) (source : DeviceId) :
    circuit.KeepsOrder (circuit.addOutput source).2 := by
  rcases addOutput_cases small source with ⟨_, answer⟩ | ⟨_, _, answer⟩
  all_goals
    rw [answer]
    exact keepsOrder_of_push wellFormed (Nat.le_of_lt small) rfl rfl rfl

variable (small : circuit.devices.size ≤ UInt32.size)

include small

theorem keepsOrder_of_assignments {next : Circuit} (assigns : ReflTransGen Assigns circuit next) :
    circuit.KeepsOrder next := by
  induction assigns using ReflTransGen.head_induction_on with
  | refl => exact KeepsOrder.refl next
  | head assign assigns inductionHypothesis =>
    rename_i first second
    have same : second.devices.size = first.devices.size := by
      obtain ⟨_, _, _, _, rfl⟩ := assign
      exact Array.size_setIfInBounds
    have keeps := keepsOrder_of_assigns wellFormed small assign
    exact keeps.trans (inductionHypothesis (wellFormed.move assign.move (same ▸ small))
      (same ▸ small))

theorem keepsOrder_connect {connected : Circuit} {id source : DeviceId}
    (spares : (Operation.connect id source).SparesGates circuit)
    (connects : circuit.connect id source = .ok connected) : circuit.KeepsOrder connected := by
  have notGate : ¬ circuit.isGate id = true := by
    intro isGate
    obtain ⟨misuse, fails⟩ := spares isGate
    cases connects.symm.trans fails
  obtain ⟨_, device, extended, found, added, rfl⟩ := connect_eq_ok_iff.mp connects
  refine keepsOrder_withReference wellFormed small found added ?_
  rw [Circuit.isGate, found] at notGate
  rw [(Device.sameSort_of_addReference added).2.2]
  exact Bool.eq_false_iff.mpr notGate

end WellFormed

/-- An operation that leaves the gates of a sorted circuit alone keeps their order. -/
theorem keepsOrder_perform {circuit : Circuit} (wellFormed : circuit.WellFormed)
    (sorts : circuit.sort = .ok circuit) {operation : Operation}
    (spares : operation.SparesGates circuit)
    (small : (operation.perform circuit).2.devices.size < UInt32.size) :
    circuit.KeepsOrder (operation.perform circuit).2 := by
  have before := Nat.lt_of_le_of_lt (size_le_perform circuit operation) small
  have bounded := Nat.le_of_lt before
  cases operation with
  | addInput => exact keepsOrder_of_push wellFormed bounded rfl rfl rfl
  | addInputs count => exact keepsOrder_addInputs wellFormed (Nat.le_of_lt small)
  | addGate kind => exact spares.elim
  | addOutput source => exact keepsOrder_addOutput wellFormed before source
  | connect id source =>
    exact keepsOrder_orUnchanged fun _ connects =>
      keepsOrder_connect wellFormed bounded spares connects
  | setInput number value =>
    exact keepsOrder_orUnchanged fun _ sets =>
      keepsOrder_of_assigns wellFormed bounded (assigns_of_setInput sets)
  | setInputs values =>
    exact keepsOrder_orUnchanged fun _ sets =>
      keepsOrder_of_assignments wellFormed bounded (assigns_of_setInputs sets)
  | sort =>
    simp only [Operation.perform, sorts]
    exact KeepsOrder.refl circuit
  | truthTable => exact keepsOrder_of_assignments wellFormed bounded (assigns_truthTable circuit)
  | outputFunctions =>
    exact keepsOrder_of_assignments wellFormed bounded (assigns_outputFunctions circuit)

/-! ### Sorting again -/

theorem Reachable.sort_eq_self {circuit : Circuit} (reachable : circuit.Reachable)
    (small : circuit.devices.size < UInt32.size) (sorted : circuit.isSorted = true) :
    circuit.sort = .ok circuit := by
  rcases reachable.order_eq_empty_or_sort small with none | sorts
  · have noGates := gates_eq_empty_of_isSorted none sorted
    have nothing : circuit.traversal.order = [] := by
      unfold traversal gateCount
      rw [noGates]
      rfl
    refine sort_eq_ok_iff.mpr ⟨?_, ?_⟩
    · rw [nothing, gateCount, noGates]
      rfl
    · rw [nothing, ← none]
  · exact sorts

/-- As long as the gates are left alone, sorting again changes nothing. -/
theorem sort_eq_self_of_spares {circuit later : Circuit} (wellFormed : circuit.WellFormed)
    (sorts : circuit.sort = .ok circuit) (spares : ReflTransGen Spares circuit later)
    (small : later.devices.size < UInt32.size) :
    later.WellFormed ∧ circuit.KeepsOrder later ∧ later.sort = .ok later := by
  induction spares with
  | refl => exact ⟨wellFormed, KeepsOrder.refl circuit, sorts⟩
  | tail earlier performs inductionHypothesis =>
    rename_i middle next
    obtain ⟨operation, spares, rfl⟩ := performs
    have before := Nat.lt_of_le_of_lt (size_le_perform middle operation) small
    obtain ⟨middleWellFormed, keeps, again⟩ := inductionHypothesis before
    have nextWellFormed : (operation.perform middle).2.WellFormed :=
      middleWellFormed.moves (moves_perform operation fun _ _ => before) (Nat.le_of_lt small)
    have kept := keepsOrder_perform middleWellFormed again spares small
    exact ⟨nextWellFormed, keeps.trans kept, sort_of_sameGates middleWellFormed
      (Nat.le_of_lt before) again kept.toSameGates kept.order nextWellFormed (Nat.le_of_lt small)⟩

/-! ### Main statement -/

/-- After any history, the remembered order is none or the one that sorting finds. A sorted circuit
is ordered correctly, therefore, and sorting it succeeds and changes nothing, also after more pins
have been added, connected and assigned. -/
theorem remembered_order_spec {circuit : Circuit} (reachable : circuit.Reachable)
    (small : circuit.devices.size < UInt32.size) :
    (circuit.order = #[] ∨ circuit.sort = .ok circuit) ∧
    (circuit.isSorted = true →
      circuit.IsEvaluationOrder circuit.order.toList ∧ circuit.sort = .ok circuit ∧
      ∀ later, ReflTransGen Spares circuit later → later.devices.size < UInt32.size →
        later.isSorted = true ∧ later.order = circuit.order ∧ later.sort = .ok later) := by
  refine ⟨reachable.order_eq_empty_or_sort small, fun sorted => ?_⟩
  have sorts := reachable.sort_eq_self small sorted
  refine ⟨(reachable.hasCurrentOrder small).isEvaluationOrder sorted, sorts,
    fun later spares laterSmall => ?_⟩
  obtain ⟨_, keeps, again⟩ :=
    sort_eq_self_of_spares (reachable.wellFormed small) sorts spares laterSmall
  exact ⟨isSorted_of_sort again, keeps.order, again⟩

/-- A sorted circuit stays sorted while a pin and an output are added, the output receives a second
reference, a pin refuses one, and the pins are assigned. -/
theorem isSorted_after_pins_and_outputs :
    let built : List Operation := [.addInput, .addGate .or, .addGate .not,
      .connect (.ofIndex 1) (.ofIndex 2), .connect (.ofIndex 2) (.ofIndex 0), .sort]
    let further : List Operation := [.addInput, .addOutput (.ofIndex 1),
      .connect (.ofIndex 4) (.ofIndex 2), .connect (.ofIndex 0) (.ofIndex 1),
      .setInputs [true, false]]
    let circuit := ofOperations built
    let later := ofOperations (built ++ further)
    circuit.Reachable ∧ circuit.devices.size < UInt32.size ∧ circuit.isSorted = true ∧
      ReflTransGen Spares circuit later ∧ later.devices.size < UInt32.size ∧
      later.isSorted = true ∧ later.order = #[.ofIndex 2, .ofIndex 1] ∧
      later.sort = .ok later := by
  intro built further circuit later
  have reachable : circuit.Reachable := reachable_ofOperations built
  have small : circuit.devices.size < UInt32.size := by decide
  have sorted : circuit.isSorted = true := by decide
  have order : circuit.order = #[.ofIndex 2, .ofIndex 1] := by decide
  have spares : ReflTransGen Spares circuit later :=
    .head ⟨.addInput, trivial, rfl⟩ <|
    .head ⟨.addOutput (.ofIndex 1), trivial, rfl⟩ <|
    .head ⟨.connect (.ofIndex 4) (.ofIndex 2), fun isGate => absurd isGate (by decide), rfl⟩ <|
    .head ⟨.connect (.ofIndex 0) (.ofIndex 1), fun isGate => absurd isGate (by decide), rfl⟩ <|
    .single ⟨.setInputs [true, false], trivial, rfl⟩
  have laterSmall : later.devices.size < UInt32.size := by decide
  obtain ⟨laterSorted, laterOrder, again⟩ :=
    ((remembered_order_spec reachable small).2 sorted).2.2 later spares laterSmall
  exact ⟨reachable, small, sorted, spares, laterSmall, laterSorted, laterOrder.trans order, again⟩

end Circuit

end Combinational
