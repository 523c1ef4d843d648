/-
This file describes the devices of a circuit and how each computes its output.

An input pin holds a value given from outside. Every other device derives its
output from the devices that it references: an output pin forwards its first
reference, a Not gate inverts its first reference, and And and Or gates consult
their references in order until one of them settles the answer.

Evaluation is written for any monad in which the outputs of the references are
asked for, so that the answer and the sequence of questions come from the same
definition.
-/

import Combinational.Misuse

namespace Combinational

/-! ### The kinds of gates -/

/-- The functions that a gate may compute. -/
inductive GateKind
  /-- True when no reference is false. -/
  | and
  /-- True when some reference is true. -/
  | or
  /-- The opposite of the first reference. -/
  | not
deriving DecidableEq

namespace GateKind

/-- The number that stands for the kind in a circuit description. -/
def code : GateKind → Nat
  | and => 1
  | or => 2
  | not => 3

/-- The kind that a number stands for. -/
def ofCode? : Nat → Option GateKind
  | 1 => some and
  | 2 => some or
  | 3 => some not
  | _ => none

/-- The name of the kind. -/
def name : GateKind → String
  | and => "And"
  | or => "Or"
  | not => "Not"

@[simp] theorem ofCode?_code (kind : GateKind) : ofCode? kind.code = some kind := by
  cases kind <;> rfl

end GateKind

/-! ### Devices and their references -/

/-- A pin or gate of a circuit. -/
inductive Device
  /-- An input pin, with the value that it holds. -/
  | inputPin (value : Bool)
  /-- An output pin, with the devices connected to it. -/
  | outputPin (references : List DeviceId)
  /-- A gate, with its references in order. -/
  | gate (kind : GateKind) (references : List DeviceId)
deriving DecidableEq

namespace Device

/-- The kind of a gate; pins have none. -/
def kind? : Device → Option GateKind
  | gate kind _ => some kind
  | inputPin _ | outputPin _ => none

/-- Whether the device is a gate. -/
def isGate (device : Device) : Bool :=
  device.kind?.isSome

/-- The devices referenced, in order and with repetitions. -/
def references : Device → List DeviceId
  | inputPin _ => []
  | outputPin references | gate _ references => references

/-- The references that evaluation may consult: the first one for output pins and Not gates,
all of them for And and Or gates. -/
def usedReferences : Device → List DeviceId
  | outputPin references | gate .not references => references.take 1
  | device => device.references

/-- Appends a reference. An input pin takes none. -/
def addReference (reference : DeviceId) : Device → Except Misuse Device
  | inputPin _ => .error .inputHasNoReference
  | outputPin references => .ok (outputPin (references ++ [reference]))
  | gate kind references => .ok (gate kind (references ++ [reference]))

/-- Assigns the value of an input pin. -/
def setValue (value : Bool) : Device → Except Misuse Device
  | inputPin _ => .ok (inputPin value)
  | outputPin _ | gate _ _ => .error .notAnInput

/-- The output of the device, given a way to ask for the outputs of its references. And and Or
gates stop asking at the first value that decides the answer. -/
def evaluate {m : Type → Type} [Monad m] [MonadExceptOf Misuse m] (value : DeviceId → m Bool) :
    Device → m Bool
  | inputPin held => pure held
  | outputPin (source :: _) => value source
  | gate .not (source :: _) => do
    let output ← value source
    return !output
  | outputPin [] | gate .not [] => throw .noReference
  | gate .and references => references.allM value
  | gate .or references => references.anyM value

/-- A name, and a list of devices in parentheses. -/
def listing (name : String) (references : List DeviceId) : String :=
  name ++ "(" ++ String.intercalate ", " (references.map DeviceId.text) ++ ")"

/-- The device as it is listed: its kind and its references, or the value of an input pin. -/
def text : Device → String
  | inputPin value => "Input(" ++ (if value then "1" else "0") ++ ")"
  | outputPin references => listing "Output" references
  | gate kind references => listing kind.name references

/-! ### Small facts -/

@[simp] theorem isGate_gate (kind : GateKind) (references : List DeviceId) :
    (gate kind references).isGate = true := rfl

@[simp] theorem isGate_inputPin (value : Bool) : (inputPin value).isGate = false := rfl

@[simp] theorem isGate_outputPin (references : List DeviceId) :
    (outputPin references).isGate = false := rfl

/-- The used references are the first ones. -/
theorem usedReferences_eq_take (device : Device) :
    ∃ count, device.usedReferences = device.references.take count := by
  match device with
  | inputPin _ => exact ⟨0, rfl⟩
  | outputPin _ => exact ⟨1, rfl⟩
  | gate .not _ => exact ⟨1, rfl⟩
  | gate .and references => exact ⟨references.length, (List.take_length).symm⟩
  | gate .or references => exact ⟨references.length, (List.take_length).symm⟩

theorem references_of_addReference {device extended : Device} {reference : DeviceId}
    (added : device.addReference reference = .ok extended) :
    extended.references = device.references ++ [reference] := by
  cases device <;> cases added <;> rfl

end Device

end Combinational
