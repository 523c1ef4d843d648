/-
This file builds circuits from statements.

The input pins come first in the arena, then the gates in the order of their
statements, so that a statement may name a gate defined after it. The gates that
no gate references then drive the output pins, in gate order.
-/

import Combinational.Circuit.Order
import Combinational.Statement

namespace Combinational

/-- The device that a source names in a circuit whose input pins come first and are followed by
its gates. -/
def Source.id (inputs : Nat) : Source → DeviceId
  | input number => .ofIndex (number - 1)
  | gate number => .ofIndex (inputs + number - 1)

namespace Circuit

/-- Adds the gate that a statement defines. -/
def addStatement (inputs : Nat) (circuit : Circuit) (statement : Statement) : Circuit :=
  (circuit.placeGate statement.kind (statement.sources.map (Source.id inputs))).2

/-- The input pins and the gates that some statements define, without output pins. -/
def wired (inputs : Nat) (statements : List Statement) : Circuit :=
  statements.foldl (addStatement inputs) (empty.addInputs inputs)

/-- Adds an output pin for each of some devices, in order. -/
def expose (circuit : Circuit) (sources : Array DeviceId) : Circuit :=
  sources.foldl (fun current source => (current.placeOutput source).2) circuit

/-- The sorted circuit with the gates that some statements define, and an output pin for each
gate that no gate references. There must be such a gate, and no loop. -/
def assemble (inputs : Nat) (statements : List Statement) : Except LoadError Circuit :=
  let gates := wired inputs statements
  if gates.sinks.isEmpty then
    .error .noOutput
  else
    gates.sort.map (·.expose gates.sinks)

end Circuit

end Combinational
