/-
This file states what the evaluation of a sorted circuit computes.

The evaluation visits the input pins, the gates in their order and the output pins, so each device
follows its references. The table that it fills therefore holds the one valuation that solves the
equations of the devices. A table that has no entries to begin with serves as well: no entry is
read before it is made.
-/

import Combinational.Proofs.Pins
import Combinational.Proofs.Valuation

namespace Combinational

namespace Circuit

/-- Whether the device is an input pin, a gate or a listed output pin. -/
def IsListed (circuit : Circuit) (id : DeviceId) : Prop :=
  id ∈ circuit.inputs ∨ id ∈ circuit.gates ∨ id ∈ circuit.outputs

/-- No Not gate lacks a reference. -/
def HasConnectedNots (circuit : Circuit) : Prop :=
  ∀ gate ∈ circuit.gates, circuit.device gate ≠ .ok (.gate .not [])

instance (circuit : Circuit) : Decidable circuit.HasConnectedNots :=
  inferInstanceAs (Decidable (∀ gate ∈ circuit.gates, circuit.device gate ≠ .ok (.gate .not [])))

theorem hasConnectedNots_of_connected {circuit : Circuit}
    (connected : ∀ gate ∈ circuit.gates, circuit.references gate ≠ []) :
    circuit.HasConnectedNots := by
  intro gate member lacking
  have referring := connected gate member
  rw [references_of_getElem? (device_eq_ok_iff.mp lacking)] at referring
  exact referring rfl

/-! ### The schedule -/

section Schedule

variable {circuit : Circuit} (wellFormed : circuit.WellFormed)
  (small : circuit.devices.size ≤ UInt32.size)
  (ordered : circuit.IsEvaluationOrder circuit.order.toList)

include ordered in
theorem mem_schedule_iff {id : DeviceId} : id ∈ circuit.schedule ↔ circuit.IsListed id := by
  unfold schedule IsListed
  rw [List.mem_append, List.mem_append, ordered.mem_iff, Array.mem_toList_iff,
    Array.mem_toList_iff, or_assoc]

include wellFormed small

theorem not_mem_gates_of_mem_inputs {id : DeviceId} (member : id ∈ circuit.inputs) :
    id ∉ circuit.gates := by
  intro gate
  obtain ⟨_, pinFound⟩ := (wellFormed.mem_inputs small).mp member
  obtain ⟨_, _, gateFound⟩ := (wellFormed.mem_gates small).mp gate
  cases pinFound.symm.trans gateFound

theorem not_mem_inputs_and_gates_of_mem_outputs {id : DeviceId} (member : id ∈ circuit.outputs) :
    id ∉ circuit.inputs ∧ id ∉ circuit.gates := by
  obtain ⟨_, _, found⟩ := wellFormed.of_mem_outputs small member
  refine ⟨fun input => ?_, fun gate => ?_⟩
  · obtain ⟨_, pinFound⟩ := (wellFormed.mem_inputs small).mp input
    cases found.symm.trans pinFound
  · obtain ⟨_, _, gateFound⟩ := (wellFormed.mem_gates small).mp gate
    cases found.symm.trans gateFound

include ordered

/-- Every scheduled device comes after its references. -/
theorem follows_schedule : circuit.Follows [] circuit.schedule := by
  unfold schedule
  rw [follows_append, follows_append, List.nil_append, List.nil_append]
  refine ⟨⟨?_, ?_⟩, ?_⟩
  · refine follows_of_nodup (wellFormed.nodup_inputs small)
      (fun _ _ => List.not_mem_nil) fun earlier id later split reference referenced => ?_
    have member : id ∈ circuit.inputs := by
      rw [← Array.mem_toList_iff, split]
      exact List.mem_append_right _ List.mem_cons_self
    obtain ⟨held, found⟩ := (wellFormed.mem_inputs small).mp member
    rw [references_of_getElem? found] at referenced
    cases referenced
  · refine follows_of_nodup ordered.nodup (fun id member input => ?_)
      fun earlier id later split reference referenced => ?_
    · exact not_mem_gates_of_mem_inputs wellFormed small (Array.mem_toList_iff.mp input)
        ((ordered.mem_iff id).mp member)
    · have member : id ∈ circuit.gates := by
        rw [← ordered.mem_iff, split]
        exact List.mem_append_right _ List.mem_cons_self
      rw [List.mem_append, Array.mem_toList_iff]
      exact (wellFormed.mem_inputs_or_mem_gates small referenced).imp_right fun gate =>
        ordered.mem_before split ⟨member, gate, referenced⟩
  · refine follows_of_nodup (wellFormed.nodup_outputs small) (fun id member settled => ?_)
      fun earlier id later split reference referenced => ?_
    · have apart := not_mem_inputs_and_gates_of_mem_outputs wellFormed small
        (Array.mem_toList_iff.mp member)
      rcases List.mem_append.mp settled with input | gate
      · exact apart.1 (Array.mem_toList_iff.mp input)
      · exact apart.2 ((ordered.mem_iff id).mp gate)
    · rw [List.mem_append, List.mem_append, Array.mem_toList_iff, ordered.mem_iff]
      exact Or.inl (wellFormed.mem_inputs_or_mem_gates small referenced)

omit ordered in
/-- A listed device exists, with the references that its kind needs unless it is a Not gate without
any. -/
theorem exists_connected_of_ne {id : DeviceId} (listed : circuit.IsListed id)
    (lacks : circuit.device id ≠ .ok (.gate .not [])) :
    ∃ device, circuit.devices[id.index]? = some device ∧ device.IsConnected := by
  rcases listed with input | gate | output
  · obtain ⟨held, found⟩ := (wellFormed.mem_inputs small).mp input
    exact ⟨_, found, trivial⟩
  · obtain ⟨kind, references, found⟩ := (wellFormed.mem_gates small).mp gate
    refine ⟨_, found, ?_⟩
    cases kind with
    | and | or => trivial
    | not =>
      rintro rfl
      exact lacks (device_eq_ok_iff.mpr found)
  · obtain ⟨first, others, found⟩ := wellFormed.of_mem_outputs small output
    exact ⟨_, found, List.cons_ne_nil _ _⟩

omit ordered in
/-- Every listed device exists, with the references that its kind needs. -/
theorem exists_connected (nots : circuit.HasConnectedNots) {id : DeviceId}
    (listed : circuit.IsListed id) :
    ∃ device, circuit.devices[id.index]? = some device ∧ device.IsConnected := by
  refine exists_connected_of_ne wellFormed small listed fun lacking => ?_
  have gate := (wellFormed.mem_gates small).mpr ⟨_, _, device_eq_ok_iff.mp lacking⟩
  exact nots id gate lacking

end Schedule

/-! ### Filling a table -/

/-- Reads a value from those that are known. -/
def readKnown (known : DeviceId → Option Bool) (id : DeviceId) : Except Misuse Bool :=
  match known id with
  | some value => .ok value
  | none => .error .missingDevice

/-- Makes the value of a device known, from the values that are known before. -/
def settleKnown (circuit : Circuit) (known : DeviceId → Option Bool) (id : DeviceId) :
    Except Misuse (DeviceId → Option Bool) := do
  let device ← circuit.device id
  let value ← device.evaluate (readKnown known)
  return Function.update known id (some value)

/-- The valuation settles the device, which has the references that it needs. -/
def SettlesConnected (circuit : Circuit) (valuation : DeviceId → Bool) (id : DeviceId) : Prop :=
  ∃ device, circuit.devices[id.index]? = some device ∧ device.IsConnected ∧
    valuation id = device.output valuation

variable {circuit : Circuit} {valuation : DeviceId → Bool}

theorem settle_eq_ok {id : DeviceId} {table : Array Bool}
    (settles : circuit.SettlesConnected valuation id)
    (entries : ∀ reference ∈ circuit.references id,
      table[reference.index]? = some (valuation reference)) :
    circuit.settle table id = .ok (table.setIfInBounds id.index (valuation id)) := by
  obtain ⟨device, found, connected, value⟩ := settles
  rw [references_of_getElem? found] at entries
  have evaluates : device.evaluate (readOutput table) = .ok (valuation id) := by
    rw [value]
    refine Device.evaluate_eq_output connected fun reference member => ?_
    unfold readOutput
    rw [entries reference member]
  exact bind_eq_ok_iff.mpr ⟨device, device_eq_ok_iff.mpr found,
    bind_eq_ok_iff.mpr ⟨_, evaluates, rfl⟩⟩

theorem settleKnown_eq_ok {id : DeviceId} {known : DeviceId → Option Bool}
    (settles : circuit.SettlesConnected valuation id)
    (entries : ∀ reference ∈ circuit.references id, known reference = some (valuation reference)) :
    circuit.settleKnown known id = .ok (Function.update known id (some (valuation id))) := by
  obtain ⟨device, found, connected, value⟩ := settles
  rw [references_of_getElem? found] at entries
  have evaluates : device.evaluate (readKnown known) = .ok (valuation id) := by
    rw [value]
    refine Device.evaluate_eq_output connected fun reference member => ?_
    unfold readKnown
    rw [entries reference member]
  exact bind_eq_ok_iff.mpr ⟨device, device_eq_ok_iff.mpr found,
    bind_eq_ok_iff.mpr ⟨_, evaluates, rfl⟩⟩

/-- Going on with a table that holds the valuation so far gives a table that holds all of it. -/
theorem foldlM_settle {done rest : List DeviceId} (follows : circuit.Follows done rest)
    (settles : ∀ id ∈ rest, circuit.SettlesConnected valuation id) {table : Array Bool}
    (size : table.size = circuit.devices.size)
    (entries : ∀ id ∈ done, table[id.index]? = some (valuation id)) :
    ∃ final, rest.foldlM circuit.settle table = .ok final ∧
      ∀ id ∈ done ++ rest, final[id.index]? = some (valuation id) := by
  let valid (table : Array Bool) : Prop := table.size = circuit.devices.size
  let entered (table : Array Bool) (id : DeviceId) : Prop :=
    table[id.index]? = some (valuation id)
  refine exists_foldlM_of_follows valid entered follows
    (fun table id size member entries => ?_) size entries
  have inside : id.index < table.size := by
    obtain ⟨device, found, _⟩ := settles id member
    rw [size]
    exact (Array.getElem?_eq_some_iff.mp found).1
  refine ⟨_, settle_eq_ok (settles id member) entries, (Array.size_setIfInBounds ..).trans size,
    Array.getElem?_setIfInBounds_self_of_lt inside, fun other different kept => ?_⟩
  exact (getElem?_setIfInBounds_other different table _).trans kept

theorem foldlM_settleKnown {done rest : List DeviceId} (follows : circuit.Follows done rest)
    (settles : ∀ id ∈ rest, circuit.SettlesConnected valuation id)
    {known : DeviceId → Option Bool} (entries : ∀ id ∈ done, known id = some (valuation id)) :
    ∃ final, rest.foldlM circuit.settleKnown known = .ok final ∧
      ∀ id ∈ done ++ rest, final id = some (valuation id) := by
  let valid (_ : DeviceId → Option Bool) : Prop := True
  let entered (known : DeviceId → Option Bool) (id : DeviceId) : Prop :=
    known id = some (valuation id)
  refine exists_foldlM_of_follows valid entered follows
    (fun known id _ member entries => ?_) trivial entries
  refine ⟨_, settleKnown_eq_ok (settles id member) entries, trivial, Function.update_self ..,
    fun other different kept => ?_⟩
  exact (Function.update_of_ne different ..).trans kept

/-! ### The values of a sorted circuit -/

section Values

variable (wellFormed : circuit.WellFormed) (small : circuit.devices.size ≤ UInt32.size)
  (ordered : circuit.IsEvaluationOrder circuit.order.toList)

include wellFormed small ordered

theorem exists_settlesConnected (nots : circuit.HasConnectedNots) :
    ∃ valuation, ∀ id, circuit.IsListed id → circuit.SettlesConnected valuation id := by
  have connected := fun id (listed : circuit.IsListed id) =>
    exists_connected wellFormed small nots listed
  obtain ⟨valuation, _, settles⟩ := exists_settles (follows_schedule wellFormed small ordered)
    (fun id member => by
      obtain ⟨device, found, _⟩ := connected id ((mem_schedule_iff ordered).mp member)
      exact ⟨device, found⟩)
    fun _ => false
  refine ⟨valuation, fun id listed => ?_⟩
  obtain ⟨device, found, value⟩ := settles id ((mem_schedule_iff ordered).mpr listed)
  obtain ⟨sameDevice, sameFound, isConnected⟩ := connected id listed
  obtain rfl : device = sameDevice := Option.some.inj (found.symm.trans sameFound)
  exact ⟨device, found, isConnected, value⟩

variable (sorted : circuit.isSorted = true)
  (settles : ∀ id, circuit.IsListed id → circuit.SettlesConnected valuation id)

include settles

theorem foldlM_settleKnown_schedule :
    ∃ known, circuit.schedule.foldlM circuit.settleKnown (fun _ => none) = .ok known ∧
      ∀ id, circuit.IsListed id → known id = some (valuation id) := by
  obtain ⟨known, folds, entries⟩ := foldlM_settleKnown
    (follows_schedule wellFormed small ordered)
    (fun id member => settles id ((mem_schedule_iff ordered).mp member))
    fun id member => by cases member
  exact ⟨known, folds, fun id listed => entries id ((mem_schedule_iff ordered).mpr listed)⟩

include sorted

theorem outputTable_eq_ok :
    ∃ table, circuit.outputTable = .ok table ∧
      ∀ id, circuit.IsListed id → table[id.index]? = some (valuation id) := by
  obtain ⟨table, folds, entries⟩ := foldlM_settle (follows_schedule wellFormed small ordered)
    (fun id member => settles id ((mem_schedule_iff ordered).mp member)) Array.size_replicate
    fun id member => by cases member
  refine ⟨table, ?_, fun id listed => entries id ((mem_schedule_iff ordered).mpr listed)⟩
  unfold outputTable
  rw [if_pos sorted]
  exact folds

theorem deviceOutput_eq_ok {id : DeviceId} (listed : circuit.IsListed id) :
    circuit.deviceOutput id = .ok (valuation id) := by
  obtain ⟨table, tabulates, entries⟩ := outputTable_eq_ok wellFormed small ordered sorted settles
  refine bind_eq_ok_iff.mpr ⟨table, tabulates, ?_⟩
  unfold readOutput
  rw [entries id listed]

theorem outputValues_eq_ok :
    circuit.outputValues = .ok (circuit.outputs.toList.map valuation) := by
  obtain ⟨table, tabulates, entries⟩ := outputTable_eq_ok wellFormed small ordered sorted settles
  refine bind_eq_ok_iff.mpr ⟨table, tabulates, mapM_eq_ok fun id member => ?_⟩
  unfold readOutput
  rw [entries id (Or.inr (Or.inr (Array.mem_toList_iff.mp member)))]

end Values

/-! ### The equations of the devices -/

/-- The valuation solves the equations of the listed devices for some values of the input pins. -/
structure Solves (circuit : Circuit) (values : List Bool) (valuation : DeviceId → Bool) : Prop where
  /-- An input pin has its assigned value. -/
  input : ∀ (position : Nat) (id : DeviceId), circuit.inputs[position]? = some id →
    values[position]? = some (valuation id)
  /-- An output pin has the value of its first reference. -/
  output : ∀ id first others, id ∈ circuit.outputs →
    circuit.device id = .ok (.outputPin (first :: others)) → valuation id = valuation first
  /-- A Not gate has the opposite value of its first reference. -/
  not : ∀ id first others, id ∈ circuit.gates →
    circuit.device id = .ok (.gate .not (first :: others)) → valuation id = !valuation first
  /-- An And gate is true if all its references are. -/
  and : ∀ id references, id ∈ circuit.gates →
    circuit.device id = .ok (.gate .and references) →
    (valuation id = true ↔ ∀ reference ∈ references, valuation reference = true)
  /-- An Or gate is true if some reference is. -/
  or : ∀ id references, id ∈ circuit.gates →
    circuit.device id = .ok (.gate .or references) →
    (valuation id = true ↔ ∃ reference ∈ references, valuation reference = true)

theorem getElem?_withPins_of_not_input {position : Nat} {device : Device}
    (found : circuit.devices[position]? = some device) (notInput : device.isInputPin = false)
    (value : DeviceId → Bool) :
    (circuit.withPins value).devices[position]? = some device := by
  rw [getElem?_withPins, found]
  cases device with
  | inputPin held => cases notInput
  | outputPin references | gate kind references => rfl

section Equations

variable {values : List Bool} (wellFormed : circuit.WellFormed)
  (small : circuit.devices.size ≤ UInt32.size)

include wellFormed small

/-- Settling the devices of the assigned circuit is solving the equations. -/
theorem solves_of_settles {value : DeviceId → Bool}
    (assigned : ∀ (position : Nat) (id : DeviceId), circuit.inputs[position]? = some id →
      values[position]? = some (value id))
    (settles : ∀ id, circuit.IsListed id →
      (circuit.withPins value).SettlesConnected valuation id) :
    circuit.Solves values valuation := by
  have output : ∀ id device, circuit.IsListed id → circuit.device id = .ok device →
      device.isInputPin = false → valuation id = device.output valuation := by
    intro id device listed looked notInput
    obtain ⟨same, found, _, settled⟩ := settles id listed
    rw [getElem?_withPins_of_not_input (device_eq_ok_iff.mp looked) notInput] at found
    rw [settled, Option.some.inj found]
  refine ⟨fun position id listed => ?_, fun id first others member looked => ?_,
    fun id first others member looked => ?_, fun id references member looked => ?_,
    fun id references member looked => ?_⟩
  · have member : id ∈ circuit.inputs := Array.mem_of_getElem? listed
    obtain ⟨held, found⟩ := (wellFormed.mem_inputs small).mp member
    obtain ⟨device, sameFound, _, settled⟩ := settles id (Or.inl member)
    rw [getElem?_withPins_of_input found] at sameFound
    rw [assigned position id listed, settled, ← Option.some.inj sameFound]
    rfl
  · exact output id _ (Or.inr (Or.inr member)) looked rfl
  · exact output id _ (Or.inr (Or.inl member)) looked rfl
  · rw [output id _ (Or.inr (Or.inl member)) looked rfl]
    exact List.all_eq_true
  · rw [output id _ (Or.inr (Or.inl member)) looked rfl]
    exact List.any_eq_true

/-- A solution of the equations settles the devices of the assigned circuit. -/
theorem settles_of_solves {value : DeviceId → Bool}
    (assigned : ∀ (position : Nat) (id : DeviceId), circuit.inputs[position]? = some id →
      values[position]? = some (value id))
    (nots : circuit.HasConnectedNots) (solves : circuit.Solves values valuation) {id : DeviceId}
    (listed : circuit.IsListed id) : (circuit.withPins value).Settles valuation id := by
  rcases listed with input | gate | output
  · obtain ⟨held, found⟩ := (wellFormed.mem_inputs small).mp input
    obtain ⟨position, atPosition⟩ := Array.mem_iff_getElem?.mp input
    refine ⟨_, getElem?_withPins_of_input found value, ?_⟩
    have same := (solves.input position id atPosition).symm.trans (assigned position id atPosition)
    exact Option.some.inj same
  · obtain ⟨kind, references, found⟩ := (wellFormed.mem_gates small).mp gate
    have looked := device_eq_ok_iff.mpr found
    refine ⟨_, getElem?_withPins_of_not_input found rfl value, ?_⟩
    cases kind with
    | and =>
      rw [Bool.eq_iff_iff, solves.and id references gate looked]
      exact List.all_eq_true.symm
    | or =>
      rw [Bool.eq_iff_iff, solves.or id references gate looked]
      exact List.any_eq_true.symm
    | not =>
      cases references with
      | nil => exact absurd looked (nots id gate)
      | cons first others => exact solves.not id first others gate looked
  · obtain ⟨first, others, found⟩ := wellFormed.of_mem_outputs small output
    refine ⟨_, getElem?_withPins_of_not_input found rfl value, ?_⟩
    exact solves.output id first others output (device_eq_ok_iff.mpr found)

end Equations

/-! ### Main statement -/

/-- Assigning the pins of a reachable circuit gives a reachable circuit with the same graph. -/
theorem exists_assigned (reachable : circuit.Reachable)
    (small : circuit.devices.size < UInt32.size) {values : List Bool}
    (length : values.length = circuit.inputCount) :
    ∃ value, circuit.setInputs values = .ok (circuit.withPins value) ∧
      (circuit.withPins value).Reachable ∧
      ∀ (position : Nat) (id : DeviceId), circuit.inputs[position]? = some id →
        values[position]? = some (value id) := by
  have wellFormed := reachable.wellFormed small
  have assigns := setInputs_eq_ok wellFormed (Nat.le_of_lt small) length
  refine ⟨_, assigns, ?_, fun position id listed => ?_⟩
  · have performed := reachable.perform (.setInputs values)
    simp only [Operation.perform, assigns, orUnchanged] at performed
    exact performed
  · rw [← Array.getElem?_toList] at listed
    have inside : position < values.length := by
      obtain ⟨inside, _⟩ := List.getElem?_eq_some_iff.mp listed
      rwa [length, inputCount, ← Array.length_toList]
    rw [assign_of_getElem? (wellFormed.nodup_inputs (Nat.le_of_lt small)) listed
      (List.getElem?_eq_getElem inside)]
    exact List.getElem?_eq_getElem inside

theorem hasConnectedNots_withPins (wellFormed : circuit.WellFormed)
    (small : circuit.devices.size ≤ UInt32.size) (nots : circuit.HasConnectedNots)
    (value : DeviceId → Bool) : (circuit.withPins value).HasConnectedNots := by
  intro gate member lacking
  obtain ⟨kind, references, found⟩ := (wellFormed.mem_gates small).mp member
  have same := getElem?_withPins_of_not_input found rfl value
  obtain ⟨rfl, rfl⟩ : kind = .not ∧ references = [] := by
    simpa using same.symm.trans (device_eq_ok_iff.mp lacking)
  exact nots gate member (device_eq_ok_iff.mpr found)

/-- In a sorted circuit without unconnected Not gates, some valuation settles the devices for an
assignment of the input pins, and they are still sorted. -/
theorem exists_valuation (reachable : circuit.Reachable)
    (small : circuit.devices.size < UInt32.size) (sorted : circuit.isSorted = true)
    (nots : circuit.HasConnectedNots) {values : List Bool}
    (length : values.length = circuit.inputCount) :
    ∃ value valuation, circuit.setInputs values = .ok (circuit.withPins value) ∧
      (∀ (position : Nat) (id : DeviceId), circuit.inputs[position]? = some id →
        values[position]? = some (value id)) ∧
      (circuit.withPins value).WellFormed ∧
      (circuit.withPins value).IsEvaluationOrder (circuit.withPins value).order.toList ∧
      ∀ id, circuit.IsListed id → (circuit.withPins value).SettlesConnected valuation id := by
  have wellFormed := reachable.wellFormed small
  obtain ⟨value, assigns, assignedReachable, given⟩ := exists_assigned reachable small length
  have assignedSmall : (circuit.withPins value).devices.size < UInt32.size := by
    rwa [size_withPins]
  have assignedWellFormed := assignedReachable.wellFormed assignedSmall
  have ordered : (circuit.withPins value).IsEvaluationOrder (circuit.withPins value).order.toList :=
    (assignedReachable.hasCurrentOrder assignedSmall).isEvaluationOrder sorted
  have assignedNots := hasConnectedNots_withPins wellFormed (Nat.le_of_lt small) nots value
  obtain ⟨valuation, settles⟩ := exists_settlesConnected assignedWellFormed
    (Nat.le_of_lt assignedSmall) ordered assignedNots
  exact ⟨value, valuation, assigns, given, assignedWellFormed, ordered, settles⟩

end Circuit

end Combinational
