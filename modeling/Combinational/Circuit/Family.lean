/-
This file defines families of circuits with known functions.

A chain of inverters has one input pin, inverted as many times as there are
gates. A decoder has one output per assignment of its input pins, true exactly
at that assignment, the first pin carrying the most significant bit.
-/

import Combinational.Circuit.Assembly
import Combinational.Pattern

namespace Combinational

namespace Circuit

/-- Fails where a family is defined to have no loop, but a loop was found. -/
def ofFamily (built : Except LoadError Circuit) : Except Misuse Circuit :=
  built.mapError fun _ => .loopingFamily

/-! ### Chains of inverters -/

/-- The gates of a chain: the first reads the input pin, each other one the gate before it. -/
def chainStatements (length : Nat) : List Statement :=
  (List.range length).map fun position =>
    { kind := .not, sources := [if position = 0 then .input 1 else .gate position] }

/-- A chain of inverters of some length, which must not be zero. -/
def inverterChain (length : Nat) : Except Misuse Circuit :=
  if length = 0 then .error .emptyFamily
  else ofFamily (assemble 1 (chainStatements length))

/-! ### Decoders -/

/-- The input pins and their inverters. -/
def decoderInputs (width : Nat) : Circuit :=
  (List.range width).foldl
    (fun circuit position => (circuit.placeGate .not [.ofIndex position]).2)
    (empty.addInputs width)

/-- The devices that are all true exactly at an assignment: for each pin the pin itself or its
inverter. -/
def minterm (width number : Nat) : List DeviceId :=
  (Pattern.bigEndian width number).zipIdx.map fun (bit, position) =>
    .ofIndex (if bit then position else width + position)

/-- Adds the gate and the output pin for an assignment. -/
def addMinterm (width : Nat) (circuit : Circuit) (number : Nat) : Circuit :=
  let (gate, extended) := circuit.placeGate .and (minterm width number)
  (extended.placeOutput gate).2

/-- The decoder of some input pins, of which there must be one. -/
def decoder (width : Nat) : Except Misuse Circuit :=
  if width = 0 then .error .emptyFamily
  else ofFamily
    ((List.range (Pattern.count width)).foldl (addMinterm width) (decoderInputs width)).sort

end Circuit

end Combinational
