/-
This file describes circuits and the operations that build and assign them.

A circuit keeps its devices in one arena. Its input pins, gates and output pins
are listed separately, in the order in which they were added, and numbered from
one. The evaluation order of the gates is remembered until a gate is added or
connected.

An operation that fails leaves the circuit as it was. The one exception is
`addOutput`, which has placed an output pin before it finds that its source
cannot drive it, and which therefore answers with a circuit in both cases.
-/

import Combinational.Device.Basic

namespace Combinational

/-- A circuit: its devices, the lists of its pins and gates, and the evaluation order of its
gates as last computed. -/
structure Circuit where
  /-- The devices, in order of creation. -/
  devices : Array Device := #[]
  /-- The input pins, in order. -/
  inputs : Array DeviceId := #[]
  /-- The gates, in order. -/
  gates : Array DeviceId := #[]
  /-- The output pins, in order. -/
  outputs : Array DeviceId := #[]
  /-- The gates in evaluation order, if they were sorted since they last changed. -/
  order : Array DeviceId := #[]
deriving DecidableEq

namespace Circuit

/-- The circuit without any device. -/
def empty : Circuit := {}

/-! ### Counting and finding devices -/

/-- The number of input pins. -/
def inputCount (circuit : Circuit) : Nat :=
  circuit.inputs.size

/-- The number of gates. -/
def gateCount (circuit : Circuit) : Nat :=
  circuit.gates.size

/-- The number of output pins. -/
def outputCount (circuit : Circuit) : Nat :=
  circuit.outputs.size

/-- The entry of a list of devices at a position, counted from zero. -/
def entry (list : Array DeviceId) (position : Nat) : Except Misuse DeviceId :=
  match list[position]? with
  | some id => .ok id
  | none => .error .missingEntry

/-- The input pin at a position, counted from zero. -/
def input (circuit : Circuit) (position : Nat) : Except Misuse DeviceId :=
  entry circuit.inputs position

/-- The gate at a position, counted from zero. -/
def gate (circuit : Circuit) (position : Nat) : Except Misuse DeviceId :=
  entry circuit.gates position

/-- The output pin at a position, counted from zero. -/
def output (circuit : Circuit) (position : Nat) : Except Misuse DeviceId :=
  entry circuit.outputs position

/-- The device that an identifier names. -/
def device (circuit : Circuit) (id : DeviceId) : Except Misuse Device :=
  match circuit.devices[id.index]? with
  | some device => .ok device
  | none => .error .missingDevice

/-- The references of a device, none if the identifier names no device. -/
def references (circuit : Circuit) (id : DeviceId) : List DeviceId :=
  match circuit.devices[id.index]? with
  | some device => device.references
  | none => []

/-- Whether an identifier names a gate. -/
def isGate (circuit : Circuit) (id : DeviceId) : Bool :=
  match circuit.devices[id.index]? with
  | some device => device.isGate
  | none => false

/-- The number of an input pin, counted from one. -/
def inputNumber? (circuit : Circuit) (id : DeviceId) : Option Nat :=
  (circuit.inputs.idxOf? id).map (· + 1)

/-- The number of a gate, counted from one. -/
def gateNumber? (circuit : Circuit) (id : DeviceId) : Option Nat :=
  (circuit.gates.idxOf? id).map (· + 1)

/-! ### Building -/

/-- The identifier that the next device will have. -/
def nextId (circuit : Circuit) : DeviceId :=
  .ofIndex circuit.devices.size

/-- Adds an input pin, initially false. -/
def addInput (circuit : Circuit) : DeviceId × Circuit :=
  (circuit.nextId, { circuit with
    devices := circuit.devices.push (.inputPin false)
    inputs := circuit.inputs.push circuit.nextId })

/-- Adds several input pins, initially false. -/
def addInputs (circuit : Circuit) : Nat → Circuit
  | 0 => circuit
  | count + 1 => circuit.addInput.2.addInputs count

/-- Adds a gate with its references. The evaluation order has to be computed again. -/
def placeGate (circuit : Circuit) (kind : GateKind) (references : List DeviceId) :
    DeviceId × Circuit :=
  (circuit.nextId, { circuit with
    devices := circuit.devices.push (.gate kind references)
    gates := circuit.gates.push circuit.nextId
    order := #[] })

/-- Adds an unconnected gate. -/
def addGate (circuit : Circuit) (kind : GateKind) : DeviceId × Circuit :=
  circuit.placeGate kind []

/-- Adds an output pin that forwards a source. -/
def placeOutput (circuit : Circuit) (source : DeviceId) : DeviceId × Circuit :=
  (circuit.nextId, { circuit with
    devices := circuit.devices.push (.outputPin [source])
    outputs := circuit.outputs.push circuit.nextId })

/-- The device that an identifier names, which must not be an output pin: output pins drive
nothing. -/
def source (circuit : Circuit) (id : DeviceId) : Except Misuse Device :=
  match circuit.device id with
  | .ok (.outputPin _) => .error (.drivenByOutput id)
  | answer => answer

/-- Replaces a device by the outcome of a change. -/
def change (circuit : Circuit) (id : DeviceId) (update : Device → Except Misuse Device) :
    Except Misuse Circuit := do
  let device ← circuit.device id
  let changed ← update device
  return { circuit with devices := circuit.devices.setIfInBounds id.index changed }

/-- Appends a reference to a gate or an output pin. The source is looked at first. If a gate
changed, the evaluation order has to be computed again. -/
def connect (circuit : Circuit) (id source : DeviceId) : Except Misuse Circuit := do
  let _ ← circuit.source source
  let connected ← circuit.change id (·.addReference source)
  return if connected.isGate id then { connected with order := #[] } else connected

/-- Adds an output pin and connects it to a source. A source that cannot drive it leaves the
pin in the arena, unconnected and unlisted. -/
def addOutput (circuit : Circuit) (source : DeviceId) : Except Misuse DeviceId × Circuit :=
  let placed := { circuit with devices := circuit.devices.push (.outputPin []) }
  match placed.connect circuit.nextId source with
  | .ok connected =>
    (.ok circuit.nextId, { connected with outputs := connected.outputs.push circuit.nextId })
  | .error misuse => (.error misuse, placed)

/-! ### The values of the input pins -/

/-- Assigns the value of an input pin, numbered from one. -/
def setInput (circuit : Circuit) (number : Nat) (value : Bool) : Except Misuse Circuit :=
  match number with
  | 0 => .error (.missingInput 0 circuit.inputCount)
  | position + 1 =>
    match circuit.inputs[position]? with
    | some id => circuit.change id (·.setValue value)
    | none => .error (.missingInput number circuit.inputCount)

/-- Assigns the values of all the input pins, in order. -/
def setInputs (circuit : Circuit) (values : List Bool) : Except Misuse Circuit :=
  if values.length = circuit.inputCount then
    (values.zipIdx 1).foldlM (fun current (value, number) => current.setInput number value) circuit
  else
    .error .pinCount

/-- The value that an input pin holds. -/
def heldValue (circuit : Circuit) (id : DeviceId) : Bool :=
  match circuit.devices[id.index]? with
  | some (.inputPin value) => value
  | _ => false

/-- The values that the input pins hold, in order. -/
def inputValues (circuit : Circuit) : List Bool :=
  circuit.inputs.toList.map circuit.heldValue

/-! ### Structure -/

/-- Whether the evaluation order covers all the gates. -/
def isSorted (circuit : Circuit) : Bool :=
  circuit.order.size == circuit.gates.size

/-- The gates in evaluation order, each after the gates that it references. -/
def evaluationOrder (circuit : Circuit) : Except Misuse (Array DeviceId) :=
  if circuit.isSorted then .ok circuit.order else .error .noOrder

/-- The number of input pins, output pins and gates, in one line. -/
def summary (circuit : Circuit) : String :=
  "Circuit: " ++ circuit.inputCount.repr ++ " input pins, " ++ circuit.outputCount.repr ++
    " output pins and " ++ circuit.gateCount.repr ++ " gates"

/-- Refuses a listed gate that is no gate, has no reference or references a device that does
not exist. -/
def checkGate (circuit : Circuit) (id : DeviceId) : Except Misuse Unit := do
  let device ← circuit.device id
  if !device.isGate then throw .notAGate
  if device.references.isEmpty then throw (.gateWithoutInput id)
  match device.references.find? fun reference => circuit.devices.size ≤ reference.index with
  | some reference => throw (.danglingReference reference)
  | none => return ()

/-- Refuses a listed output pin that does not hold exactly one reference. -/
def checkOutput (circuit : Circuit) (id : DeviceId) : Except Misuse Unit := do
  let device ← circuit.device id
  if device.references.length ≠ 1 then throw (.undrivenOutput id)

/-- Refuses a circuit in which some listed gate or output pin is not connected. -/
def check (circuit : Circuit) : Except Misuse Unit := do
  circuit.gates.toList.forM circuit.checkGate
  circuit.outputs.toList.forM circuit.checkOutput

/-! ### The size of the arena -/

theorem size_addInput (circuit : Circuit) :
    circuit.addInput.2.devices.size = circuit.devices.size + 1 := by
  simp [addInput]

theorem size_placeGate (circuit : Circuit) (kind : GateKind) (references : List DeviceId) :
    (circuit.placeGate kind references).2.devices.size = circuit.devices.size + 1 := by
  simp [placeGate]

theorem size_placeOutput (circuit : Circuit) (source : DeviceId) :
    (circuit.placeOutput source).2.devices.size = circuit.devices.size + 1 := by
  simp [placeOutput]

/-- A change that succeeds gives the devices, with the one that changed, and the lists of the
circuit. -/
theorem change_eq_ok {circuit changed : Circuit} {id : DeviceId}
    {update : Device → Except Misuse Device} (succeeds : circuit.change id update = .ok changed) :
    ∃ device updated, circuit.device id = .ok device ∧ update device = .ok updated ∧
      changed = { circuit with devices := circuit.devices.setIfInBounds id.index updated } := by
  unfold change at succeeds
  cases found : circuit.device id with
  | error misuse => rw [found] at succeeds; cases succeeds
  | ok device =>
    rw [found] at succeeds
    cases done : update device with
    | error misuse => simp [bind, Except.bind, done] at succeeds
    | ok updated =>
      simp only [bind, Except.bind, done, pure, Except.pure, Except.ok.injEq] at succeeds
      exact ⟨device, updated, rfl, done, succeeds.symm⟩

end Circuit

end Combinational
