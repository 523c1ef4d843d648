/-
This file proves that a circuit remembers nothing of the requests made to it but the pin values.

A request writes to one input pin, writes to all of them, or simulates the circuit. The table of all
assignments goes through every assignment and leaves the pins true, as if it wrote that to each. The
other simulations write nothing: the one of the values at hand only reads, and the output functions
give the pins their values back. So after some requests each pin holds the last value written to it,
and whatever else the circuit consists of is the same as before.
-/

import Combinational.Proofs.OutputFunctions

namespace Combinational

/-! ### Requests -/

/-- A request to a circuit. -/
inductive Request
  /-- Assigns the input pin with a number. -/
  | setInput (number : Nat) (value : Bool)
  /-- Assigns all the input pins. -/
  | setInputs (values : List Bool)
  /-- Computes the row for the values that the input pins hold. -/
  | simulate
  /-- Computes the rows of all assignments. -/
  | truthTable
  /-- Computes the functions of the outputs. -/
  | outputFunctions

namespace Request

/-- The circuit after a request, if the request succeeds. -/
def perform (circuit : Circuit) : Request → Except Misuse Circuit
  | setInput number value => circuit.setInput number value
  | setInputs values => circuit.setInputs values
  | simulate => circuit.simulate.map fun _ => circuit
  | truthTable => circuit.truthTable.1.map fun _ => circuit.truthTable.2
  | outputFunctions => circuit.outputFunctions.1.map fun _ => circuit.outputFunctions.2

/-- The circuit after some requests, if they all succeed. -/
def performAll (circuit : Circuit) (requests : List Request) : Except Misuse Circuit :=
  requests.foldlM perform circuit

/-- Whether the request writes to input pins that exist, and to all of them if it writes to all. -/
def IsProper (inputs : Nat) : Request → Prop
  | setInput number _ => 1 ≤ number ∧ number ≤ inputs
  | setInputs values => values.length = inputs
  | simulate | truthTable | outputFunctions => True

instance (inputs : Nat) : (request : Request) → Decidable (request.IsProper inputs)
  | setInput number _ => inferInstanceAs (Decidable (1 ≤ number ∧ number ≤ inputs))
  | setInputs values => inferInstanceAs (Decidable (values.length = inputs))
  | simulate | truthTable | outputFunctions => .isTrue trivial

/-- The value that the request writes to the input pin at a position, if it writes one. -/
def written (position : Nat) : Request → Option Bool
  | setInput number value => if number = position + 1 then some value else none
  | setInputs values => values[position]?
  | truthTable => some true
  | simulate | outputFunctions => none

/-- The last value that some requests write to the input pin at a position, if they write one. -/
def lastWritten (position : Nat) (requests : List Request) : Option Bool :=
  requests.reverse.findSome? (written position)

/-- What the input pins hold after the request, given what they held before. -/
def effect (values : List Bool) : Request → List Bool
  | setInput number value => values.set (number - 1) value
  | setInputs assigned => assigned
  | truthTable => List.replicate values.length true
  | simulate | outputFunctions => values

/-! ### The last values -/

theorem length_effect {inputs : Nat} {request : Request} (proper : request.IsProper inputs)
    {values : List Bool} (length : values.length = inputs) :
    (request.effect values).length = inputs := by
  cases request with
  | setInput number value => exact List.length_set.trans length
  | setInputs assigned => exact proper
  | truthTable => exact List.length_replicate.trans length
  | simulate | outputFunctions => exact length

/-- A pin holds what a request writes to it, or what it held before. -/
theorem getElem?_effect {inputs : Nat} {request : Request} (proper : request.IsProper inputs)
    {values : List Bool} (length : values.length = inputs) {position : Nat}
    (inside : position < inputs) :
    (request.effect values)[position]? = (request.written position).or values[position]? := by
  cases request with
  | setInput number value =>
    obtain ⟨positive, _⟩ : 1 ≤ number ∧ number ≤ inputs := proper
    show (values.set (number - 1) value)[position]? =
      (if number = position + 1 then some value else none).or values[position]?
    by_cases same : number = position + 1
    · subst same
      rw [if_pos rfl, Nat.add_sub_cancel, List.getElem?_set_self (by omega), Option.some_or]
    · rw [if_neg same, List.getElem?_set_ne (by omega), Option.none_or]
  | setInputs assigned =>
    obtain rfl : assigned.length = inputs := proper
    show assigned[position]? = assigned[position]?.or values[position]?
    rw [List.getElem?_eq_getElem inside, Option.some_or]
  | truthTable =>
    show (List.replicate values.length true)[position]? = (some true).or values[position]?
    rw [List.getElem?_replicate, if_pos (by omega), Option.some_or]
  | simulate | outputFunctions => rfl

/-- After some requests, the pins hold the last values written to them. -/
theorem getElem?_foldl_effect {inputs : Nat} {requests : List Request}
    (proper : ∀ request ∈ requests, request.IsProper inputs) {values : List Bool}
    (length : values.length = inputs) :
    (requests.foldl effect values).length = inputs ∧ ∀ position < inputs,
      (requests.foldl effect values)[position]? =
        (lastWritten position requests).or values[position]? := by
  induction requests using List.reverseRecOn with
  | nil => exact ⟨length, fun _ _ => rfl⟩
  | append_singleton requests last inductionHypothesis =>
    rw [List.forall_mem_append, List.forall_mem_singleton] at proper
    obtain ⟨sameLength, held⟩ := inductionHypothesis proper.1
    rw [List.foldl_concat]
    refine ⟨length_effect proper.2 sameLength, fun position inside => ?_⟩
    -- The last request decides, if it writes to the pin, and else those before it.
    rw [getElem?_effect proper.2 sameLength inside, held position inside, ← Option.or_assoc,
      lastWritten, lastWritten, List.reverse_concat, List.findSome?_cons]
    cases last.written position with
    | none => rw [Option.none_or]
    | some value => rw [Option.some_or]

end Request

namespace Circuit

/-! ### One request -/

/-- Writing to one pin replaces one value. -/
theorem setInput_assigned {circuit : Circuit} (wellFormed : circuit.WellFormed)
    (small : circuit.devices.size ≤ UInt32.size) {values : List Bool}
    (length : values.length = circuit.inputCount) {position : Nat}
    (inside : position < circuit.inputCount) (value : Bool) :
    (circuit.assigned values).setInput (position + 1) value =
      .ok (circuit.assigned (values.set position value)) := by
  have listed : circuit.inputs[position]? = some circuit.inputs[position] :=
    Array.getElem?_eq_getElem inside
  rw [assigned, setInput_withPins wellFormed small listed]
  refine congrArg Except.ok (assigned_eq_withPins wellFormed small (List.length_set.trans length)
    fun other id otherListed => ?_).symm
  by_cases same : position = other
  · subst same
    obtain rfl := Option.some.inj (listed.symm.trans otherListed)
    rw [List.getElem?_set_self (by omega), Function.update_self]
  · have different : id ≠ circuit.inputs[position] := by
      rintro rfl
      have twice := listed.trans otherListed.symm
      rw [← Array.getElem?_toList, ← Array.getElem?_toList] at twice
      exact same ((List.getElem?_inj inside (wellFormed.nodup_inputs small)).mp twice)
    rw [List.getElem?_set_ne same, Function.update_of_ne different]
    exact assign_of_mem_inputs wellFormed small length otherListed _

/-- A request that succeeds is proper. -/
theorem isProper_of_perform {circuit next : Circuit} {request : Request}
    (succeeds : request.perform circuit = .ok next) : request.IsProper circuit.inputCount := by
  cases request with
  | setInput number value =>
    match number with
    | 0 => cases succeeds
    | position + 1 =>
      refine ⟨Nat.le_add_left 1 position, Nat.succ_le_of_lt (not_le.mp fun outside => ?_)⟩
      simp only [Request.perform, setInput, Array.getElem?_eq_none outside] at succeeds
      cases succeeds
  | setInputs assigned =>
    show assigned.length = circuit.inputCount
    by_contra partly
    rw [Request.perform, setInputs, if_neg partly] at succeeds
    cases succeeds
  | simulate | truthTable | outputFunctions => trivial

section Requests

variable {circuit : Circuit} (reachable : circuit.Reachable)
  (small : circuit.devices.size < UInt32.size) (sorted : circuit.isSorted = true)
  (nots : circuit.HasConnectedNots) (pins : 1 ≤ circuit.inputCount ∧ circuit.inputCount < 64)

include reachable small sorted nots pins

/-- A proper request succeeds and changes only what the pins hold. -/
theorem perform_assigned {request : Request} (proper : request.IsProper circuit.inputCount)
    {values : List Bool} (length : values.length = circuit.inputCount) :
    request.perform (circuit.assigned values) = .ok (circuit.assigned (request.effect values)) := by
  have wellFormed := reachable.wellFormed small
  have responds := responds_of_isSorted reachable small sorted nots
  cases request with
  | setInput number value =>
    obtain ⟨position, rfl⟩ := Nat.exists_eq_add_of_le' proper.1
    exact setInput_assigned wellFormed small.le length proper.2 value
  | setInputs assigned => exact setInputs_eq_assigned wellFormed small.le proper _
  | simulate =>
    rw [Request.perform, simulate_assigned wellFormed small.le responds length]
    rfl
  | truthTable =>
    have table := truthTable_withPins wellFormed small.le responds pins
      (assign circuit.inputs.toList values fun _ => false)
    rw [Request.perform, assigned, table, Request.effect, length,
      assigned_replicate wellFormed small.le]
    rfl
  | outputFunctions =>
    have functions := outputFunctions_eq (reachable_withPins reachable small _)
      (by rwa [size_withPins]) sorted (hasConnectedNots_withPins wellFormed small.le nots
        (assign circuit.inputs.toList values fun _ => false))
    rw [Request.perform, assigned, functions]
    rfl

/-- Requests succeed exactly if they are proper, and have their effects one after the other. -/
theorem performAll_assigned {requests : List Request} {values : List Bool}
    (length : values.length = circuit.inputCount) {served : Circuit} :
    Request.performAll (circuit.assigned values) requests = .ok served ↔
      (∀ request ∈ requests, request.IsProper circuit.inputCount) ∧
        circuit.assigned (requests.foldl Request.effect values) = served := by
  induction requests generalizing values with
  | nil => simp [Request.performAll, pure, Except.pure]
  | cons request requests inductionHypothesis =>
    rw [Request.performAll, List.foldlM_cons, bind_eq_ok_iff, List.forall_mem_cons]
    constructor
    · rintro ⟨next, first, rest⟩
      -- The request has succeeded, so it is proper, and there is one circuit that it can leave.
      have proper : request.IsProper (circuit.assigned values).inputCount :=
        isProper_of_perform first
      rw [perform_assigned reachable small sorted nots pins proper length] at first
      obtain rfl := Except.ok.inj first
      obtain ⟨others, rfl⟩ := (inductionHypothesis (Request.length_effect proper length)).mp rest
      exact ⟨⟨proper, others⟩, rfl⟩
    · rintro ⟨⟨proper, others⟩, rfl⟩
      exact ⟨_, perform_assigned reachable small sorted nots pins proper length,
        (inductionHypothesis (Request.length_effect proper length)).mpr ⟨others, rfl⟩⟩

theorem performAll_eq_ok_iff {requests : List Request} {served : Circuit} :
    Request.performAll circuit requests = .ok served ↔
      (∀ request ∈ requests, request.IsProper circuit.inputCount) ∧
        circuit.assigned (requests.foldl Request.effect circuit.inputValues) = served := by
  have performs : Request.performAll (circuit.assigned circuit.inputValues) requests = .ok served ↔
      _ := performAll_assigned reachable small sorted nots pins circuit.length_inputValues
  rwa [assigned_inputValues (reachable.wellFormed small) small.le] at performs

/-- Two pins may be assigned in either order. -/
theorem performAll_swap {first second : Nat} (different : first ≠ second)
    (firstListed : 1 ≤ first ∧ first ≤ circuit.inputCount)
    (secondListed : 1 ≤ second ∧ second ≤ circuit.inputCount) (firstValue secondValue : Bool) :
    ∃ served, Request.performAll circuit
        [.setInput first firstValue, .setInput second secondValue] = .ok served ∧
      Request.performAll circuit
        [.setInput second secondValue, .setInput first firstValue] = .ok served := by
  refine ⟨_, (performAll_eq_ok_iff reachable small sorted nots pins).mpr ⟨?_, rfl⟩,
    (performAll_eq_ok_iff reachable small sorted nots pins).mpr ⟨?_, ?_⟩⟩
  · exact List.forall_mem_cons.mpr ⟨firstListed, List.forall_mem_singleton.mpr secondListed⟩
  · exact List.forall_mem_cons.mpr ⟨secondListed, List.forall_mem_singleton.mpr firstListed⟩
  · have positions : second - 1 ≠ first - 1 := by omega
    exact congrArg circuit.assigned (List.set_comm secondValue firstValue positions)

/-! ### Main statement -/

/-- Requests to a sorted circuit without unconnected Not gates succeed exactly if they write to pins
that exist. They change nothing but what the pins hold. Each pin then holds the last value written
to it, or else the one from before. Two pins may be assigned in either order. -/
theorem performAll_spec :
    (∀ requests, (∃ served, Request.performAll circuit requests = .ok served) ↔
      ∀ request ∈ requests, request.IsProper circuit.inputCount) ∧
    (∀ requests served, Request.performAll circuit requests = .ok served →
      (∃ held, served = circuit.withPins held) ∧
      served.inputValues.length = circuit.inputCount ∧
      ∀ position < circuit.inputCount, served.inputValues[position]? =
        (Request.lastWritten position requests).or circuit.inputValues[position]?) ∧
    ∀ first second, first ≠ second → (1 ≤ first ∧ first ≤ circuit.inputCount) →
      (1 ≤ second ∧ second ≤ circuit.inputCount) → ∀ firstValue secondValue, ∃ served,
        Request.performAll circuit
          [.setInput first firstValue, .setInput second secondValue] = .ok served ∧
        Request.performAll circuit
          [.setInput second secondValue, .setInput first firstValue] = .ok served := by
  have wellFormed := reachable.wellFormed small
  refine ⟨fun requests => ?_, fun requests served succeeds => ?_,
    fun _ _ => performAll_swap reachable small sorted nots pins⟩
  · simp only [performAll_eq_ok_iff reachable small sorted nots pins, exists_and_left,
      exists_eq', and_true]
  · obtain ⟨proper, rfl⟩ :=
      (performAll_eq_ok_iff reachable small sorted nots pins).mp succeeds
    obtain ⟨length, holds⟩ := Request.getElem?_foldl_effect proper circuit.length_inputValues
    rw [inputValues_assigned wellFormed small.le length]
    exact ⟨⟨_, rfl⟩, length, holds⟩

end Requests

/-- After both pins were written to one by one, together and by a table, the first one is written to
once more. The pins hold that value and the one from the table. -/
theorem inputValues_after_table :
    let circuit := ofOperations [.addInput, .addInput, .addGate .and, .addGate .not,
      .connect (.ofIndex 2) (.ofIndex 0), .connect (.ofIndex 2) (.ofIndex 3),
      .connect (.ofIndex 3) (.ofIndex 1), .addOutput (.ofIndex 2), .sort]
    let requests : List Request := [.setInput 2 true, .setInputs [true, false], .truthTable,
      .setInput 1 false, .outputFunctions, .simulate]
    circuit.Reachable ∧ circuit.devices.size < UInt32.size ∧ circuit.isSorted = true ∧
      circuit.HasConnectedNots ∧ (1 ≤ circuit.inputCount ∧ circuit.inputCount < 64) ∧
      (∃ served held, Request.performAll circuit requests = .ok served ∧
        served = circuit.withPins held ∧ served.inputValues[0]? = some false ∧
        served.inputValues[1]? = some true) ∧
      ∃ served,
        Request.performAll circuit [.setInput 1 true, .setInput 2 false] = .ok served ∧
        Request.performAll circuit [.setInput 2 false, .setInput 1 true] = .ok served := by
  intro circuit requests
  have reachable : circuit.Reachable := reachable_ofOperations _
  have small : circuit.devices.size < UInt32.size := by decide
  have sorted : circuit.isSorted = true := by decide
  have nots : circuit.HasConnectedNots := by decide
  have pins : 1 ≤ circuit.inputCount ∧ circuit.inputCount < 64 := by decide
  obtain ⟨succeeds, holds, swaps⟩ := performAll_spec reachable small sorted nots pins
  obtain ⟨served, performs⟩ := (succeeds requests).mpr (by decide)
  obtain ⟨⟨held, same⟩, _, values⟩ := holds requests served performs
  exact ⟨reachable, small, sorted, nots, pins,
    ⟨served, held, performs, same, values 0 (by decide), values 1 (by decide)⟩,
    swaps 1 2 (by decide) (by decide) (by decide) true false⟩

end Circuit

end Combinational
