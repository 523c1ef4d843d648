/-
This file breaks the operations on circuits into elementary moves.

A move places one device, appends one reference, assigns one input pin or sets the evaluation
order. Whatever holds after each move therefore holds after each operation, also after one that
stops halfway. Moves never remove a device.
-/

import Combinational.Circuit.Order
import Combinational.Circuit.Simulation
import Combinational.Proofs.Arena
import Mathlib.Logic.Relation

namespace Combinational

open Relation

theorem bind_eq_ok_iff {Failure First Second : Type} {first : Except Failure First}
    {next : First → Except Failure Second} {answer : Second} :
    first >>= next = .ok answer ↔ ∃ value, first = .ok value ∧ next value = .ok answer := by
  constructor
  · intro succeeds
    cases first with
    | error failure => cases succeeds
    | ok value => exact ⟨value, rfl, succeeds⟩
  · rintro ⟨value, rfl, succeeds⟩
    exact succeeds

theorem mapM_eq_ok {Failure Item Value : Type} {items : List Item}
    {compute : Item → Except Failure Value} {value : Item → Value}
    (computes : ∀ item ∈ items, compute item = .ok (value item)) :
    items.mapM compute = .ok (items.map value) := by
  induction items with
  | nil => rfl
  | cons item items inductionHypothesis =>
    have rest := inductionHypothesis fun other member =>
      computes other (List.mem_cons_of_mem item member)
    rw [List.mapM_cons, computes item List.mem_cons_self, rest]
    rfl

theorem setIfInBounds_push_size (devices : Array Device) (first second : Device) :
    (devices.push first).setIfInBounds devices.size second = devices.push second := by
  rw [← Array.toList_inj, Array.toList_setIfInBounds, Array.toList_push, Array.toList_push,
    ← Array.length_toList, List.set_append_right _ _ (Nat.le_refl _), Nat.sub_self,
    List.set_cons_zero]

namespace Circuit

/-! ### Operations that succeed -/

theorem source_eq_ok_iff {circuit : Circuit} {id : DeviceId} {device : Device} :
    circuit.source id = .ok device ↔
      circuit.devices[id.index]? = some device ∧ device.isOutputPin = false := by
  rw [← device_eq_ok_iff]
  unfold Circuit.source
  cases looked : circuit.device id with
  | error misuse => simp
  | ok found =>
    cases found with
    | inputPin value | gate kind references =>
      simp only [Except.ok.injEq, iff_self_and]
      rintro rfl
      rfl
    | outputPin references =>
      simp only [reduceCtorEq, Except.ok.injEq, false_iff, not_and, Bool.not_eq_false]
      rintro rfl
      rfl

theorem mayDrive_of_source {circuit : Circuit} {id : DeviceId} {device : Device}
    (looked : circuit.source id = .ok device) : MayDrive circuit.devices id :=
  ⟨device, source_eq_ok_iff.mp looked⟩

/-- The circuit in which a reference has been appended to a device. -/
def withReference (circuit : Circuit) (id : DeviceId) (device : Device) : Circuit :=
  { circuit with
    devices := circuit.devices.setIfInBounds id.index device
    order := if device.isGate then #[] else circuit.order }

/-- Connecting succeeds if the source may drive a device and the device takes a reference, and
then changes that device alone. -/
theorem connect_eq_ok_iff {circuit connected : Circuit} {id source : DeviceId} :
    circuit.connect id source = .ok connected ↔
      MayDrive circuit.devices source ∧ ∃ device extended,
        circuit.devices[id.index]? = some device ∧
        device.addReference source = .ok extended ∧
        connected = circuit.withReference id extended := by
  have gateKept : ∀ {device extended : Device}, circuit.devices[id.index]? = some device →
      isGate { circuit with devices := circuit.devices.setIfInBounds id.index extended } id =
        extended.isGate := by
    intro device extended found
    unfold Circuit.isGate
    rw [getElem?_setIfInBounds_of_some found]
  unfold connect
  rw [bind_eq_ok_iff]
  constructor
  · rintro ⟨driver, looked, changes⟩
    obtain ⟨changed, change, answer⟩ := bind_eq_ok_iff.mp changes
    obtain ⟨device, extended, found, added, rfl⟩ := change_eq_ok change
    refine ⟨mayDrive_of_source looked, device, extended, device_eq_ok_iff.mp found, added, ?_⟩
    rw [gateKept (device_eq_ok_iff.mp found)] at answer
    obtain rfl := Except.ok.inj answer
    unfold withReference
    split <;> rfl
  · rintro ⟨⟨driver, looked⟩, device, extended, found, added, rfl⟩
    have changes : circuit.change id (·.addReference source) = .ok { circuit with
        devices := circuit.devices.setIfInBounds id.index extended } :=
      bind_eq_ok_iff.mpr ⟨device, device_eq_ok_iff.mpr found,
        bind_eq_ok_iff.mpr ⟨extended, added, rfl⟩⟩
    refine ⟨driver, source_eq_ok_iff.mpr looked, bind_eq_ok_iff.mpr ⟨_, changes, ?_⟩⟩
    rw [gateKept found]
    unfold withReference
    split <;> rfl

/-- Assigning an input pin succeeds if there is a pin with this number, and changes its value. -/
theorem setInput_eq_ok {circuit assigned : Circuit} {number : Nat} {value : Bool}
    (succeeds : circuit.setInput number value = .ok assigned) :
    ∃ position id held, number = position + 1 ∧ circuit.inputs[position]? = some id ∧
      circuit.devices[id.index]? = some (.inputPin held) ∧
      assigned = { circuit with
        devices := circuit.devices.setIfInBounds id.index (.inputPin value) } := by
  unfold setInput at succeeds
  cases number with
  | zero => cases succeeds
  | succ position =>
    cases listed : circuit.inputs[position]? with
    | none => simp [listed] at succeeds
    | some id =>
      simp only [listed] at succeeds
      obtain ⟨device, updated, found, assigns, rfl⟩ := change_eq_ok succeeds
      obtain ⟨⟨held, rfl⟩, rfl⟩ := Device.setValue_eq_ok assigns
      exact ⟨position, id, held, rfl, listed, device_eq_ok_iff.mp found, rfl⟩

/-- An output pin whose source may not drive it stays in the arena, and nothing else changes.
Otherwise the pin is connected and listed. -/
theorem addOutput_cases {circuit : Circuit} (small : circuit.devices.size < UInt32.size)
    (source : DeviceId) :
    (MayDrive circuit.devices source ∧
      circuit.addOutput source = (.ok circuit.nextId, (circuit.placeOutput source).2)) ∨
    (¬ MayDrive circuit.devices source ∧ ∃ misuse, circuit.addOutput source =
      (.error misuse, { circuit with devices := circuit.devices.push (.outputPin []) })) := by
  have atEnd : circuit.nextId.index = circuit.devices.size :=
    DeviceId.index_ofIndex_of_lt small
  have found : (circuit.devices.push (.outputPin []))[circuit.nextId.index]? =
      some (.outputPin []) := by
    rw [atEnd]
    exact Array.getElem?_push_size
  -- The source may not be the new pin, so it may drive it exactly if it could before.
  have drives : MayDrive (circuit.devices.push (.outputPin [])) source ↔
      MayDrive circuit.devices source := by
    refine ⟨?_, fun drives => drives.push _⟩
    rintro ⟨device, sourceFound, notOutput⟩
    rw [Array.getElem?_push] at sourceFound
    split at sourceFound
    · obtain rfl := Option.some.inj sourceFound
      cases notOutput
    · exact ⟨device, sourceFound, notOutput⟩
  unfold addOutput
  by_cases drivable : MayDrive circuit.devices source
  case pos =>
    refine Or.inl ⟨drivable, ?_⟩
    have added : Device.addReference source (.outputPin []) = .ok (.outputPin [source]) := rfl
    have connects : connect { circuit with devices := circuit.devices.push (.outputPin []) }
        circuit.nextId source = .ok { circuit with
          devices := circuit.devices.push (.outputPin [source]) } := by
      refine connect_eq_ok_iff.mpr ⟨drives.mpr drivable, _, _, found, added, ?_⟩
      rw [withReference, atEnd, setIfInBounds_push_size]
      rfl
    simp only [connects]
    rfl
  case neg =>
    refine Or.inr ⟨drivable, ?_⟩
    cases answer : connect { circuit with devices := circuit.devices.push (.outputPin []) }
        circuit.nextId source with
    | error misuse => exact ⟨misuse, by simp only [answer]⟩
    | ok connected => exact absurd (drives.mp (connect_eq_ok_iff.mp answer).1) drivable

/-! ### Elementary moves -/

/-- One elementary change of a circuit. -/
inductive Move : Circuit → Circuit → Prop
  /-- An input pin is added. -/
  | addInput (circuit : Circuit) : Move circuit circuit.addInput.2
  /-- An unconnected gate is added. -/
  | addGate (circuit : Circuit) (kind : GateKind) : Move circuit (circuit.addGate kind).2
  /-- An output pin is placed and stays unlisted. -/
  | placeStray (circuit : Circuit) :
    Move circuit { circuit with devices := circuit.devices.push (.outputPin []) }
  /-- An output pin is added. -/
  | placeOutput {circuit : Circuit} {source : DeviceId}
    (drives : MayDrive circuit.devices source) : Move circuit (circuit.placeOutput source).2
  /-- A reference is appended to a device. -/
  | connect {circuit : Circuit} {id source : DeviceId} {device extended : Device}
    (drives : MayDrive circuit.devices source)
    (found : circuit.devices[id.index]? = some device)
    (added : device.addReference source = .ok extended) :
    Move circuit (circuit.withReference id extended)
  /-- An input pin is assigned. -/
  | assign {circuit : Circuit} {id : DeviceId} {held : Bool}
    (found : circuit.devices[id.index]? = some (.inputPin held)) (value : Bool) :
    Move circuit { circuit with
      devices := circuit.devices.setIfInBounds id.index (.inputPin value) }
  /-- The gates are sorted. -/
  | sort {circuit sorted : Circuit} (sorts : circuit.sort = .ok sorted) : Move circuit sorted

theorem sort_eq_ok_iff {circuit sorted : Circuit} :
    circuit.sort = .ok sorted ↔ circuit.traversal.order.length = circuit.gateCount ∧
      sorted = { circuit with order := circuit.traversal.order.toArray } := by
  unfold sort
  simp only
  split
  · next complete =>
    rw [Except.ok.injEq, and_iff_right complete, eq_comm]
  · next incomplete => simp [incomplete]

theorem Move.size_le {circuit next : Circuit} (move : Move circuit next) :
    circuit.devices.size ≤ next.devices.size := by
  cases move with
  | addInput => exact (size_addInput circuit).symm ▸ Nat.le_succ _
  | addGate kind => exact (size_placeGate circuit kind []).symm ▸ Nat.le_succ _
  | placeStray => simp
  | placeOutput drives => exact (size_placeOutput circuit _).symm ▸ Nat.le_succ _
  | connect drives found added => simp [withReference]
  | assign found value => simp
  | sort sorts =>
    obtain ⟨_, rfl⟩ := sort_eq_ok_iff.mp sorts
    exact Nat.le_refl _

theorem size_le_of_moves {circuit next : Circuit} (moves : ReflTransGen Move circuit next) :
    circuit.devices.size ≤ next.devices.size := by
  induction moves with
  | refl => exact Nat.le_refl _
  | tail _ move inductionHypothesis => exact Nat.le_trans inductionHypothesis move.size_le

/-! ### Operations as moves -/

theorem moves_addInputs (circuit : Circuit) (count : Nat) :
    ReflTransGen Move circuit (circuit.addInputs count) := by
  induction count generalizing circuit with
  | zero => exact ReflTransGen.refl
  | succ count inductionHypothesis =>
    exact ReflTransGen.head (Move.addInput circuit) (inductionHypothesis _)

theorem moves_addOutput {circuit : Circuit} (small : circuit.devices.size < UInt32.size)
    (source : DeviceId) : ReflTransGen Move circuit (circuit.addOutput source).2 := by
  rcases addOutput_cases small source with ⟨drives, answer⟩ | ⟨_, misuse, answer⟩
  · rw [answer]
    exact ReflTransGen.single (Move.placeOutput drives)
  · rw [answer]
    exact ReflTransGen.single (Move.placeStray circuit)

theorem move_of_connect {circuit connected : Circuit} {id source : DeviceId}
    (succeeds : circuit.connect id source = .ok connected) : Move circuit connected := by
  obtain ⟨drives, device, extended, found, added, rfl⟩ := connect_eq_ok_iff.mp succeeds
  exact Move.connect drives found added

/-! ### Operations that assign pins -/

/-- One input pin receives a value. -/
def Assigns (circuit assigned : Circuit) : Prop :=
  ∃ (id : DeviceId) (held value : Bool), circuit.devices[id.index]? = some (.inputPin held) ∧
    assigned = { circuit with
      devices := circuit.devices.setIfInBounds id.index (.inputPin value) }

theorem Assigns.move {circuit assigned : Circuit} (assigns : circuit.Assigns assigned) :
    Move circuit assigned := by
  obtain ⟨id, held, value, found, rfl⟩ := assigns
  exact Move.assign found value

theorem moves_of_assigns {circuit assigned : Circuit}
    (assigns : ReflTransGen Assigns circuit assigned) : ReflTransGen Move circuit assigned :=
  ReflTransGen.mono (fun _ _ => Assigns.move) _ _ assigns

theorem assigns_of_setInput {circuit assigned : Circuit} {number : Nat} {value : Bool}
    (succeeds : circuit.setInput number value = .ok assigned) : circuit.Assigns assigned := by
  obtain ⟨_, id, held, _, _, found, rfl⟩ := setInput_eq_ok succeeds
  exact ⟨id, held, value, found, rfl⟩

theorem assigns_of_foldlM {Item : Type} {step : Circuit → Item → Except Misuse Circuit}
    (each : ∀ current item next, step current item = .ok next → current.Assigns next)
    {items : List Item} {circuit assigned : Circuit}
    (succeeds : items.foldlM step circuit = .ok assigned) :
    ReflTransGen Assigns circuit assigned := by
  induction items generalizing circuit with
  | nil =>
    obtain rfl := Except.ok.inj succeeds
    exact ReflTransGen.refl
  | cons item items inductionHypothesis =>
    rw [List.foldlM_cons] at succeeds
    obtain ⟨next, assigns, succeeds⟩ := bind_eq_ok_iff.mp succeeds
    exact ReflTransGen.head (each circuit item next assigns) (inductionHypothesis succeeds)

theorem assigns_of_setInputs {circuit assigned : Circuit} {values : List Bool}
    (succeeds : circuit.setInputs values = .ok assigned) :
    ReflTransGen Assigns circuit assigned := by
  unfold setInputs at succeeds
  split at succeeds
  · exact assigns_of_foldlM (fun _ _ _ assigns => assigns_of_setInput assigns) succeeds
  · cases succeeds

theorem assigns_sweep {Result : Type} (pattern : Nat → List Bool) (keep : Result → Row → Result)
    (count number : Nat) (result : Result) (circuit : Circuit) :
    ReflTransGen Assigns circuit (sweep pattern keep count number result circuit).2 := by
  induction count generalizing number result circuit with
  | zero => exact ReflTransGen.refl
  | succ count inductionHypothesis =>
    unfold sweep
    cases sets : circuit.setInputs (pattern number) with
    | error misuse => exact ReflTransGen.refl
    | ok assigned =>
      have assigns := assigns_of_setInputs sets
      cases evaluates : assigned.outputValues with
      | error misuse => simpa [evaluates] using assigns
      | ok outputs => simpa [evaluates] using assigns.trans (inductionHypothesis ..)

theorem assigns_truthTable (circuit : Circuit) :
    ReflTransGen Assigns circuit circuit.truthTable.2 := by
  show ReflTransGen Assigns circuit (circuit.sweepAssignments Array.push #[]).2
  unfold sweepAssignments
  split
  · exact ReflTransGen.refl
  · exact assigns_sweep ..

theorem assigns_outputFunctions (circuit : Circuit) :
    ReflTransGen Assigns circuit circuit.outputFunctions.2 := by
  have swept := assigns_sweep (Pattern.littleEndian circuit.inputCount) addColumns
    (Pattern.count circuit.inputCount) 0 (List.replicate circuit.outputCount #[]) circuit
  unfold outputFunctions
  simp only
  split
  · next equal => rwa [equal] at swept
  · next equal =>
    rw [equal] at swept
    split
    · exact swept
    · next restores => exact swept.trans (assigns_of_setInputs restores)

end Circuit

end Combinational
