/-
This file computes the outputs of all the devices of a sorted circuit.

The devices are visited once: the input pins, then the gates in evaluation
order, then the output pins. Each reads the outputs computed before it from a
table that has an entry per device.
-/

import Combinational.Circuit.Basic

namespace Combinational

namespace Circuit

/-- The entry of a table of outputs that belongs to a device. -/
def readOutput (table : Array Bool) (id : DeviceId) : Except Misuse Bool :=
  match table[id.index]? with
  | some value => .ok value
  | none => .error .missingDevice

/-- Enters the output of a device into a table that holds the outputs of its references. -/
def settle (circuit : Circuit) (table : Array Bool) (id : DeviceId) :
    Except Misuse (Array Bool) := do
  let device ← circuit.device id
  let value ← device.evaluate (readOutput table)
  return table.setIfInBounds id.index value

/-- The devices in the order in which they are evaluated. -/
def schedule (circuit : Circuit) : List DeviceId :=
  circuit.inputs.toList ++ circuit.order.toList ++ circuit.outputs.toList

/-- The outputs of all the devices, for the values held by the input pins. -/
def outputTable (circuit : Circuit) : Except Misuse (Array Bool) :=
  if circuit.isSorted then
    circuit.schedule.foldlM circuit.settle (Array.replicate circuit.devices.size false)
  else
    .error .unsorted

/-- The values of the output pins, in order. -/
def outputValues (circuit : Circuit) : Except Misuse (List Bool) := do
  let table ← circuit.outputTable
  circuit.outputs.toList.mapM (readOutput table)

/-- The output of a device. -/
def deviceOutput (circuit : Circuit) (id : DeviceId) : Except Misuse Bool := do
  let table ← circuit.outputTable
  readOutput table id

end Circuit

end Combinational
