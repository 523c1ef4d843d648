/-
This file sorts the gates of a circuit into an evaluation order.

The order is found backwards. A gate is ready once all the gates that reference
it have been placed, so the traversal starts with the sinks, the gates that no
gate references, and placing a gate takes one reference away from each gate that
it references. Ready gates wait on a stack, and each placed gate goes in front of
those placed before it.

A traversal that stops early has met a loop. Every gate it left out is
referenced by another gate that it left out, so walking from a gate to one that
references it comes back, sooner or later, to a gate already seen. That gate is
reported.
-/

import Combinational.Circuit.Basic
import Combinational.LoadError

namespace Combinational

namespace Circuit

/-! ### References between gates -/

/-- For each device, how many references of gates name it. -/
def referenceCounts (circuit : Circuit) : Array Nat :=
  circuit.gates.foldl
    (fun counts gate => (circuit.references gate).foldl
      (fun counts source => counts.modify source.index (· + 1)) counts)
    (Array.replicate circuit.devices.size 0)

/-- The gates that no gate references, in gate order. -/
def sinks (circuit : Circuit) : Array DeviceId :=
  let counts := circuit.referenceCounts
  circuit.gates.filter fun gate => counts[gate.index]? == some 0

/-! ### The traversal -/

/-- A traversal of the gates from consumers to producers. -/
structure Traversal where
  /-- For each device, how many references of gates not yet placed name it. -/
  counts : Array Nat
  /-- Which devices have been placed. -/
  placed : Array Bool
  /-- The gates that are ready, the next one first. -/
  ready : List DeviceId
  /-- The gates placed so far, the last one first. -/
  order : List DeviceId

namespace Traversal

/-- Whether a device has been placed. -/
def isPlaced (traversal : Traversal) (id : DeviceId) : Bool :=
  traversal.placed[id.index]? == some true

/-- The traversal that has placed nothing yet, with the sinks ready. -/
def start (circuit : Circuit) : Traversal where
  counts := circuit.referenceCounts
  placed := Array.replicate circuit.devices.size false
  ready := circuit.sinks.toList
  order := []

/-- Takes one reference away from a gate, which is ready when that was the last one. Pins are
passed over. -/
def release (circuit : Circuit) (traversal : Traversal) (source : DeviceId) : Traversal :=
  if circuit.isGate source then
    match traversal.counts[source.index]? with
    | some (remaining + 1) => { traversal with
        counts := traversal.counts.setIfInBounds source.index remaining
        ready := if remaining = 0 then source :: traversal.ready else traversal.ready }
    | _ => traversal
  else
    traversal

/-- Places a gate and releases its references, in order. -/
def place (circuit : Circuit) (traversal : Traversal) (gate : DeviceId) : Traversal :=
  (circuit.references gate).foldl (release circuit) { traversal with
    placed := traversal.placed.setIfInBounds gate.index true
    order := gate :: traversal.order }

/-- Takes the next ready gate, and places it unless it is placed already. -/
def step (circuit : Circuit) (traversal : Traversal) : Traversal :=
  match traversal.ready with
  | [] => traversal
  | gate :: ready =>
    let rest := { traversal with ready := ready }
    if traversal.isPlaced gate then rest else rest.place circuit gate

/-- Takes a number of steps. -/
def run (circuit : Circuit) (traversal : Traversal) : Nat → Traversal
  | 0 => traversal
  | steps + 1 => (traversal.step circuit).run circuit steps

end Traversal

/-- The traversal after one step per gate, when nothing is ready any more. -/
def traversal (circuit : Circuit) : Traversal :=
  (Traversal.start circuit).run circuit circuit.gateCount

/-! ### Loops -/

/-- For each device, the last gate left out of a traversal that references it. -/
def pendingConsumers (circuit : Circuit) (traversal : Traversal) : Array (Option DeviceId) :=
  circuit.gates.foldl
    (fun consumers gate =>
      if traversal.isPlaced gate then consumers
      else (circuit.references gate).foldl
        (fun consumers source => consumers.setIfInBounds source.index (some gate)) consumers)
    (Array.replicate circuit.devices.size none)

/-- Walks from a device to its consumer, and on, until a device was seen before. The number of
moves is bounded. -/
def revisited? (consumers : Array (Option DeviceId)) :
    (moves : Nat) → (seen : List DeviceId) → DeviceId → Option DeviceId
  | 0, _, _ => none
  | moves + 1, seen, current =>
    if seen.contains current then
      some current
    else
      match consumers[current.index]? with
      | some (some consumer) => revisited? consumers moves (current :: seen) consumer
      | _ => none

/-- A gate on a loop, given the traversal that could not place all gates. -/
def loopingGate? (circuit : Circuit) (traversal : Traversal) : Option DeviceId :=
  match circuit.gates.find? fun gate => !traversal.isPlaced gate with
  | some gate =>
    revisited? (circuit.pendingConsumers traversal) (circuit.devices.size + 1) [] gate
  | none => none

/-! ### Sorting -/

/-- Computes the evaluation order: each gate comes after the gates that it references. Gates that
form a loop have none. -/
def sort (circuit : Circuit) : Except LoadError Circuit :=
  let final := circuit.traversal
  if final.order.length = circuit.gateCount then
    .ok { circuit with order := final.order.toArray }
  else
    .error (.combinationalLoop
      (((circuit.loopingGate? final).bind circuit.gateNumber?).getD 0))

end Circuit

end Combinational
