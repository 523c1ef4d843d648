/-
This file proves that operations which fail have changed nothing, or next to nothing.

A circuit is changed in place, one step after the other, and a step that fails does not undo those
before it. Assigning and connecting check everything before their first change, so it makes no
difference. This is clear for a single pin. When all the pins are assigned, a failure halfway would
leave some of them assigned, but after the first check every pin can be.

Adding an output pin does change the circuit before it fails. The device that it leaves behind is in
none of the lists and is not referenced, so no answer depends on it.
-/

import Combinational.Circuit.Netlist
import Combinational.Proofs.Numbering
import Combinational.Proofs.Obstacles

namespace Combinational

/-! ### Changing a circuit step by step -/

/-- An operation that changes a circuit in place. If it fails, what it has changed stays changed. -/
abbrev InPlace (Failure Value : Type) : Type :=
  ExceptT Failure (StateM Circuit) Value

namespace InPlace

variable {Failure First Value : Type}

/-- The answer of an operation, and the circuit that it leaves. -/
def perform (operation : InPlace Failure Value) (circuit : Circuit) :
    Except Failure Value × Circuit :=
  operation.run.run circuit

/-- Asks the circuit, as it is now, for something that it may not have. -/
def ask (answer : Circuit → Except Failure Value) : InPlace Failure Value := do
  match answer (← get) with
  | .ok value => return value
  | .error failure => throw failure

/-- Replaces a device by the outcome of a change. -/
def change (id : DeviceId) (update : Device → Except Misuse Device) : InPlace Misuse Unit := do
  let changed ← ask fun circuit => circuit.device id >>= update
  modify fun circuit => { circuit with
    devices := circuit.devices.setIfInBounds id.index changed }

/-- Appends a reference to a device, then forgets the evaluation order if that is a gate. -/
def connect (id source : DeviceId) : InPlace Misuse Unit := do
  let _ ← ask (·.source source)
  change id (·.addReference source)
  if (← get).isGate id then
    modify fun circuit => { circuit with order := #[] }

/-- Places an output pin, connects it and lists it. -/
def addOutput (source : DeviceId) : InPlace Misuse DeviceId := do
  let id := (← get).nextId
  modify fun circuit => { circuit with devices := circuit.devices.push (.outputPin []) }
  connect id source
  modify fun circuit => { circuit with outputs := circuit.outputs.push id }
  return id

/-- Assigns the value of an input pin, numbered from one. -/
def setInput (number : Nat) (value : Bool) : InPlace Misuse Unit := do
  let count := (← get).inputCount
  if 1 ≤ number ∧ number ≤ count then
    let id ← ask (·.input (number - 1))
    change id (·.setValue value)
  else
    throw (.missingInput number count)

/-- Assigns the values of all the input pins, one after the other. -/
def setInputs (values : List Bool) : InPlace Misuse Unit := do
  if values.length = (← get).inputCount then
    (values.zipIdx 1).forM fun (value, number) => setInput number value
  else
    throw .pinCount

/-- Finds the evaluation order, then remembers it. -/
def sort : InPlace LoadError Unit := do
  let sorted ← ask (·.sort)
  modify fun circuit => { circuit with order := sorted.order }

/-! ### Performing steps -/

theorem perform_bind (first : InPlace Failure First) (next : First → InPlace Failure Value)
    (circuit : Circuit) : (first >>= next).perform circuit =
      match first.perform circuit with
      | (.ok value, changed) => (next value).perform changed
      | (.error failure, changed) => (.error failure, changed) := by
  show (match first.perform circuit with
    | (answer, changed) => (ExceptT.bindCont next answer).run changed) = _
  rcases first.perform circuit with ⟨_ | _, _⟩ <;> rfl

theorem perform_ask (answer : Circuit → Except Failure Value) (circuit : Circuit) :
    (ask answer).perform circuit = (answer circuit, circuit) := by
  unfold ask
  rw [perform_bind]
  show perform (match answer circuit with
    | .ok value => pure value
    | .error failure => throw failure) circuit = _
  cases answer circuit <;> rfl

theorem perform_get_bind (next : Circuit → InPlace Failure Value) (circuit : Circuit) :
    (get >>= next).perform circuit = (next circuit).perform circuit := by
  rw [perform_bind]
  rfl

theorem perform_modify (update : Circuit → Circuit) (circuit : Circuit) :
    (modify update : InPlace Failure Unit).perform circuit = (.ok (), update circuit) :=
  rfl

/-- A change of a single device fails before it changes anything. -/
theorem perform_change (id : DeviceId) (update : Device → Except Misuse Device)
    (circuit : Circuit) :
    (change id update).perform circuit = circuit.orUnchanged (circuit.change id update) := by
  unfold change Circuit.change
  rw [perform_bind, perform_ask, ← bind_assoc]
  cases circuit.device id >>= update <;> rfl

/-- Connecting checks the source and the device before it changes anything. -/
theorem perform_connect (id source : DeviceId) (circuit : Circuit) :
    (connect id source).perform circuit = circuit.orUnchanged (circuit.connect id source) := by
  unfold connect Circuit.connect
  rw [perform_bind, perform_ask]
  cases circuit.source source with
  | error misuse => rfl
  | ok driver =>
    simp only
    rw [perform_bind, perform_change]
    cases changes : circuit.change id (·.addReference source) with
    | error misuse => rfl
    | ok changed =>
      simp only [Circuit.orUnchanged]
      rw [perform_get_bind]
      show perform (if changed.isGate id = true then
        modify fun circuit => { circuit with order := #[] } else pure ()) changed =
          circuit.orUnchanged (.ok (if changed.isGate id then { changed with order := #[] }
            else changed))
      split <;> rfl

/-- A pin that cannot be connected has been placed already. -/
theorem perform_addOutput (source : DeviceId) (circuit : Circuit) :
    (addOutput source).perform circuit = circuit.addOutput source := by
  unfold addOutput Circuit.addOutput
  rw [perform_get_bind, perform_bind, perform_modify]
  simp only
  rw [perform_bind, perform_connect]
  cases Circuit.connect { circuit with devices := circuit.devices.push (.outputPin []) }
    circuit.nextId source <;> rfl

theorem perform_setInput (number : Nat) (value : Bool) (circuit : Circuit) :
    (setInput number value).perform circuit =
      circuit.orUnchanged (circuit.setInput number value) := by
  unfold setInput Circuit.setInput
  rw [perform_get_bind]
  cases number with
  | zero => rfl
  | succ position =>
    cases listed : circuit.inputs[position]? with
    | none =>
      have beyond : circuit.inputs.size ≤ position := Array.getElem?_eq_none_iff.mp listed
      have outside : ¬ (1 ≤ position + 1 ∧ position + 1 ≤ circuit.inputCount) := by
        rw [Circuit.inputCount]
        omega
      simp only [listed, if_neg outside]
      rfl
    | some id =>
      obtain ⟨inside, _⟩ := Array.getElem?_eq_some_iff.mp listed
      have within : 1 ≤ position + 1 ∧ position + 1 ≤ circuit.inputCount := ⟨by omega, inside⟩
      have input : circuit.input (position + 1 - 1) = .ok id := by
        rw [Nat.add_sub_cancel, Circuit.input, Circuit.entry, listed]
      simp only [listed]
      rw [if_pos within, perform_bind, perform_ask, input]
      exact perform_change id _ circuit

/-- Steps that succeed one after the other when each keeps its change do so in place. -/
theorem perform_forM {Item : Type} {step : Item → InPlace Misuse Unit}
    {advance : Circuit → Item → Except Misuse Circuit}
    (performs : ∀ item circuit,
      (step item).perform circuit = circuit.orUnchanged (advance circuit item))
    {items : List Item} {circuit final : Circuit}
    (succeeds : items.foldlM advance circuit = .ok final) :
    (items.forM step).perform circuit = (.ok (), final) := by
  induction items generalizing circuit with
  | nil =>
    obtain rfl := Except.ok.inj succeeds
    rfl
  | cons item items inductionHypothesis =>
    rw [List.foldlM_cons] at succeeds
    obtain ⟨next, advances, rest⟩ := bind_eq_ok_iff.mp succeeds
    show (step item >>= fun _ => items.forM step).perform circuit = _
    rw [perform_bind, performs, advances]
    exact inductionHypothesis rest

/-- Once there is a value for each pin, no assignment fails. -/
theorem perform_setInputs {circuit : Circuit} (wellFormed : circuit.WellFormed)
    (small : circuit.devices.size ≤ UInt32.size) (values : List Bool) :
    (setInputs values).perform circuit = circuit.orUnchanged (circuit.setInputs values) := by
  unfold setInputs
  rw [perform_get_bind]
  by_cases length : values.length = circuit.inputCount
  · have assigns := Circuit.setInputs_eq_ok wellFormed small length
    rw [assigns, if_pos length]
    rw [Circuit.setInputs, if_pos length] at assigns
    exact perform_forM (fun item : Bool × Nat => perform_setInput item.2 item.1) assigns
  · rw [Circuit.setInputs, if_neg length, if_neg length]
    rfl

theorem perform_sort_of_error {circuit : Circuit} {failure : LoadError}
    (fails : circuit.sort = .error failure) :
    sort.perform circuit = (.error failure, circuit) := by
  unfold sort
  rw [perform_bind, perform_ask, fails]

end InPlace

namespace Circuit

/-! ### Devices outside the lists -/

/-- Another circuit has the same lists, the same order and the same listed devices. -/
structure ListsAlike (circuit other : Circuit) : Prop where
  inputs_eq : other.inputs = circuit.inputs
  gates_eq : other.gates = circuit.gates
  outputs_eq : other.outputs = circuit.outputs
  order_eq : other.order = circuit.order
  devices_eq : ∀ id, circuit.IsListed id → other.devices[id.index]? = circuit.devices[id.index]?

namespace ListsAlike

variable {circuit other : Circuit} (alike : circuit.ListsAlike other)

include alike

theorem netlist_eq : other.netlist = circuit.netlist := by
  have summary : other.summary = circuit.summary := by
    simp only [Circuit.summary, inputCount, outputCount, gateCount, alike.inputs_eq,
      alike.gates_eq, alike.outputs_eq]
  have lines : ∀ id ∈ (circuit.inputs ++ circuit.gates ++ circuit.outputs).toList,
      other.netlistLine id = circuit.netlistLine id := by
    intro id member
    have listed : circuit.IsListed id := by
      rw [Array.mem_toList_iff, Array.mem_append, Array.mem_append, or_assoc] at member
      exact member
    unfold netlistLine
    rw [alike.devices_eq id listed]
  rw [netlist, netlist, summary, alike.inputs_eq, alike.gates_eq, alike.outputs_eq,
    List.map_congr_left lines]

theorem write_eq : Lcf.write other = Lcf.write circuit := by
  have described := Lcf.describe_congr alike.inputs_eq alike.gates_eq fun gate member =>
    alike.devices_eq gate (Or.inr (Or.inl member))
  exact congrArg Lcf.Description.text described

theorem sameGates : SameGates circuit other where
  gates := alike.gates_eq
  references gate member := by
    unfold Circuit.references
    rw [alike.devices_eq gate (Or.inr (Or.inl member))]

theorem hasCurrentOrder (current : circuit.HasCurrentOrder) : other.HasCurrentOrder := by
  unfold HasCurrentOrder
  rw [alike.order_eq]
  exact current.imp_right fun ordered =>
    ordered.congr alike.gates_eq alike.sameGates.references

theorem obstacle?_eq : other.obstacle? = circuit.obstacle? := by
  have sorted : other.isSorted = circuit.isSorted := by
    rw [isSorted, isSorted, alike.order_eq, alike.gates_eq]
  have nots : other.HasConnectedNots ↔ circuit.HasConnectedNots := by
    unfold HasConnectedNots
    rw [alike.gates_eq]
    refine forall₂_congr fun gate member => ?_
    rw [Circuit.device, Circuit.device, alike.devices_eq gate (Or.inr (Or.inl member))]
  rw [obstacle?, obstacle?, sorted, if_congr nots rfl rfl]

variable (wellFormed : circuit.WellFormed) (small : circuit.devices.size ≤ UInt32.size)
  (otherWellFormed : other.WellFormed) (otherSmall : other.devices.size ≤ UInt32.size)

include wellFormed small otherWellFormed otherSmall

theorem sinks_eq : other.sinks = circuit.sinks :=
  Array.toList_inj.mp
    (Traversal.alike_start wellFormed small otherWellFormed otherSmall alike.sameGates).ready

/-- The same obstacle makes both evaluations fail. Without one, the same valuation settles the
listed devices. -/
theorem outputValues_eq (current : circuit.HasCurrentOrder) :
    other.outputValues = circuit.outputValues := by
  have otherCurrent := alike.hasCurrentOrder current
  cases obstacle : circuit.obstacle? with
  | some misuse =>
    have fails := failsJustWith_obstacle wellFormed small current
    have otherFails := failsJustWith_obstacle otherWellFormed otherSmall otherCurrent
    rw [(fails.outputValues misuse).mpr obstacle,
      (otherFails.outputValues misuse).mpr (alike.obstacle?_eq.trans obstacle)]
  | none =>
    obtain ⟨sorted, nots⟩ := obstacle?_eq_none_iff.mp obstacle
    obtain ⟨otherSorted, _⟩ := obstacle?_eq_none_iff.mp (alike.obstacle?_eq.trans obstacle)
    have ordered := current.isEvaluationOrder sorted
    obtain ⟨valuation, settles⟩ := exists_settlesConnected wellFormed small ordered nots
    have otherSettles : ∀ id, other.IsListed id → other.SettlesConnected valuation id := by
      intro id listed
      rw [IsListed, alike.inputs_eq, alike.gates_eq, alike.outputs_eq] at listed
      obtain ⟨device, found, connected, value⟩ := settles id listed
      exact ⟨device, (alike.devices_eq id listed).trans found, connected, value⟩
    rw [outputValues_eq_ok wellFormed small ordered sorted settles,
      outputValues_eq_ok otherWellFormed otherSmall (otherCurrent.isEvaluationOrder otherSorted)
        otherSorted otherSettles, alike.outputs_eq]

end ListsAlike

/-! ### Main statement -/

/-- What an output pin that could not be connected leaves behind: the pin is the last device, and
everything else is as before. -/
structure GainsStray (circuit left : Circuit) : Prop where
  eq : left = { circuit with devices := circuit.devices.push (.outputPin []) }
  unreferenced : ∀ id, circuit.nextId ∉ left.references id
  outputValues_eq : left.outputValues = circuit.outputValues
  sinks_eq : left.sinks = circuit.sinks
  write_eq : Lcf.write left = Lcf.write circuit
  netlist_eq : left.netlist = circuit.netlist

section Failures

variable {circuit : Circuit} (wellFormed : circuit.WellFormed)

include wellFormed

theorem index_lt_of_isListed (small : circuit.devices.size ≤ UInt32.size) {id : DeviceId}
    (listed : circuit.IsListed id) : id.index < circuit.devices.size := by
  have exists_device : ∃ device, circuit.devices[id.index]? = some device := by
    rcases listed with input | gate | output
    · obtain ⟨_, found⟩ := (wellFormed.mem_inputs small).mp input
      exact ⟨_, found⟩
    · obtain ⟨_, _, found⟩ := (wellFormed.mem_gates small).mp gate
      exact ⟨_, found⟩
    · obtain ⟨_, _, found⟩ := wellFormed.of_mem_outputs small output
      exact ⟨_, found⟩
  obtain ⟨_, found⟩ := exists_device
  exact (Array.getElem?_eq_some_iff.mp found).1

theorem listsAlike_push (small : circuit.devices.size ≤ UInt32.size) (pushed : Device) :
    circuit.ListsAlike { circuit with devices := circuit.devices.push pushed } := by
  refine ⟨rfl, rfl, rfl, rfl, fun id listed => ?_⟩
  have inside := index_lt_of_isListed wellFormed small listed
  rw [Array.getElem?_push, if_neg (Nat.ne_of_lt inside)]

theorem gainsStray_push (small : circuit.devices.size < UInt32.size)
    (current : circuit.HasCurrentOrder) :
    circuit.GainsStray { circuit with devices := circuit.devices.push (.outputPin []) } := by
  have alike := listsAlike_push wellFormed small.le (.outputPin [])
  have leftWellFormed := wellFormed.pushStray
  have leftSmall : (circuit.devices.push (.outputPin [])).size ≤ UInt32.size := by
    rw [Array.size_push]
    exact small
  refine ⟨rfl, fun id referenced => ?_,
    alike.outputValues_eq wellFormed small.le leftWellFormed leftSmall current,
    alike.sinks_eq wellFormed small.le leftWellFormed leftSmall, alike.write_eq, alike.netlist_eq⟩
  have listed : circuit.IsListed circuit.nextId :=
    (leftWellFormed.mem_inputs_or_mem_gates leftSmall referenced).imp_right Or.inl
  have inside := index_lt_of_isListed wellFormed small.le listed
  rw [nextId, DeviceId.index_ofIndex_of_lt small] at inside
  exact Nat.lt_irrefl _ inside

end Failures

/-- Assigning and connecting in place and sorting leave a reachable circuit unchanged if they fail.
An output pin that cannot be connected stays in the arena, without any effect on the answers of the
circuit. -/
theorem failed_operations_spec {circuit : Circuit} (reachable : circuit.Reachable)
    (small : circuit.devices.size < UInt32.size) :
    (∀ number value, (InPlace.setInput number value).perform circuit =
      circuit.orUnchanged (circuit.setInput number value)) ∧
    (∀ values, (InPlace.setInputs values).perform circuit =
      circuit.orUnchanged (circuit.setInputs values)) ∧
    (∀ id source, (InPlace.connect id source).perform circuit =
      circuit.orUnchanged (circuit.connect id source)) ∧
    (∀ failure, circuit.sort = .error failure →
      InPlace.sort.perform circuit = (.error failure, circuit)) ∧
    ∀ source, (InPlace.addOutput source).perform circuit = circuit.addOutput source ∧
      ∀ misuse left, circuit.addOutput source = (.error misuse, left) →
        circuit.GainsStray left := by
  have wellFormed := reachable.wellFormed small
  refine ⟨fun number value => InPlace.perform_setInput number value circuit,
    InPlace.perform_setInputs wellFormed small.le,
    fun id source => InPlace.perform_connect id source circuit,
    fun failure => InPlace.perform_sort_of_error,
    fun source => ⟨InPlace.perform_addOutput source circuit, fun misuse left fails => ?_⟩⟩
  rcases addOutput_cases small source with ⟨_, answer⟩ | ⟨_, _, answer⟩
  · cases (Prod.mk.inj (answer.symm.trans fails)).1
  · obtain ⟨_, rfl⟩ := Prod.mk.inj (answer.symm.trans fails)
    exact gainsStray_push wellFormed small (reachable.hasCurrentOrder small)

/-- An output pin cannot drive another one. A circuit in which that was tried evaluates as before. -/
theorem gainsStray_driven_by_output :
    let circuit := ofOperations [.addInput, .addGate .not, .connect (.ofIndex 1) (.ofIndex 0),
      .addOutput (.ofIndex 1), .sort]
    let left := (circuit.addOutput (.ofIndex 2)).2
    circuit.Reachable ∧ circuit.devices.size < UInt32.size ∧
      circuit.addOutput (.ofIndex 2) = (.error (.drivenByOutput (.ofIndex 2)), left) ∧
      left ≠ circuit ∧ circuit.GainsStray left := by
  intro circuit left
  have reachable : circuit.Reachable := reachable_ofOperations _
  have small : circuit.devices.size < UInt32.size := by decide
  have fails : circuit.addOutput (.ofIndex 2) =
      (.error (.drivenByOutput (.ofIndex 2)), left) := by
    decide
  obtain ⟨_, _, _, _, strays⟩ := failed_operations_spec reachable small
  exact ⟨reachable, small, fails, by decide, (strays (.ofIndex 2)).2 _ left fails⟩

end Circuit

end Combinational
