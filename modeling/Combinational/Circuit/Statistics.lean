/-
This file counts the gates of a sorted circuit and measures its depth.

Gates are counted by kind, and And and Or gates also by their number of
references, in histograms that are just long enough for the largest number met.
The depth is the largest number of gates on a path to the device behind an
output pin, along the references that evaluation may consult.
-/

import Combinational.Circuit.Basic

namespace Combinational

/-! ### Histograms -/

/-- How many things have each size, indexed by the size; sizes beyond the end have none. -/
abbrev Histogram := Array Nat

namespace Histogram

/-- Counts one more thing of a size, and grows the histogram if the size is beyond its end. -/
def record (histogram : Histogram) (size : Nat) : Histogram :=
  (histogram ++ Array.replicate (size + 1 - histogram.size) 0).modify size (· + 1)

theorem size_record (histogram : Histogram) (size : Nat) :
    (histogram.record size).size = max histogram.size (size + 1) := by
  simp only [record, Array.size_modify, Array.size_append, Array.size_replicate]
  omega

/-- A line for each size that some thing has. -/
def text (histogram : Histogram) : String :=
  String.join (histogram.toList.zipIdx.map fun (count, size) =>
    if count = 0 then "" else "      " ++ size.repr ++ ": " ++ count.repr ++ "\n")

end Histogram

/-! ### Statistics -/

/-- The size and depth of a circuit. -/
structure Statistics where
  /-- The number of input pins. -/
  inputs : Nat
  /-- The number of output pins. -/
  outputs : Nat
  /-- The number of And gates. -/
  ands : Nat := 0
  /-- The And gates by their number of references. -/
  andArity : Histogram := #[]
  /-- The number of Or gates. -/
  ors : Nat := 0
  /-- The Or gates by their number of references. -/
  orArity : Histogram := #[]
  /-- The number of Not gates. -/
  nots : Nat := 0
  /-- The largest number of gates on a path to an output pin. -/
  depth : Nat := 0
deriving DecidableEq

namespace Statistics

/-- The number of gates. -/
def gates (statistics : Statistics) : Nat :=
  statistics.ands + statistics.ors + statistics.nots

/-- Counts one more device; pins are not counted. -/
def record (statistics : Statistics) : Device → Statistics
  | .gate .and references => { statistics with
      ands := statistics.ands + 1
      andArity := statistics.andArity.record references.length }
  | .gate .or references => { statistics with
      ors := statistics.ors + 1
      orArity := statistics.orArity.record references.length }
  | .gate .not _ => { statistics with nots := statistics.nots + 1 }
  | .inputPin _ | .outputPin _ => statistics

/-- A line per number, with the histogram under the And and Or gates. Kinds without gates are
left out. -/
def text (statistics : Statistics) : String :=
  "Stats:\n" ++
  "  Inputs: " ++ statistics.inputs.repr ++ "\n" ++
  "  Outputs: " ++ statistics.outputs.repr ++ "\n" ++
  "  Gates: " ++ statistics.gates.repr ++ "\n" ++
  "  Depth: " ++ statistics.depth.repr ++ "\n" ++
  (if statistics.ands = 0 then ""
    else "  And: " ++ statistics.ands.repr ++ "\n" ++ statistics.andArity.text) ++
  (if statistics.ors = 0 then ""
    else "  Or: " ++ statistics.ors.repr ++ "\n" ++ statistics.orArity.text) ++
  (if statistics.nots = 0 then "" else "  Not: " ++ statistics.nots.repr ++ "\n")

end Statistics

namespace Circuit

/-! ### Depth -/

/-- The largest entry of a table among those of some devices, zero for no device. -/
def deepest (table : Array Nat) (sources : List DeviceId) : Except Misuse Nat := do
  let depths ← sources.mapM fun source =>
    match table[source.index]? with
    | some depth => Except.ok depth
    | none => .error .missingDevice
  return depths.foldl max 0

/-- Enters the depth of a gate into a table that holds the depths of the gates before it. -/
def settleDepth (circuit : Circuit) (table : Array Nat) (id : DeviceId) :
    Except Misuse (Array Nat) := do
  let device ← circuit.device id
  let depth ← deepest table device.usedReferences
  if id.index < table.size then
    return table.setIfInBounds id.index (depth + 1)
  else
    throw .missingDevice

/-- The depths of the devices; pins have depth zero. The table has an entry per listed pin and
gate, and a device beyond it has no depth. -/
def depthTable (circuit : Circuit) : Except Misuse (Array Nat) := do
  let order ← circuit.evaluationOrder
  order.toList.foldlM circuit.settleDepth
    (Array.replicate (circuit.inputCount + circuit.gateCount + circuit.outputCount) 0)

/-- The depth of the deepest device behind an output pin. -/
def depth (circuit : Circuit) : Except Misuse Nat := do
  let table ← circuit.depthTable
  deepest table (circuit.outputs.toList.flatMap circuit.references)

/-- The statistics of a sorted circuit. -/
def statistics (circuit : Circuit) : Except Misuse Statistics := do
  let devices ← circuit.gates.toList.mapM circuit.device
  let depth ← circuit.depth
  let pins : Statistics := { inputs := circuit.inputCount, outputs := circuit.outputCount }
  return { devices.foldl .record pins with depth }

end Circuit

end Combinational
