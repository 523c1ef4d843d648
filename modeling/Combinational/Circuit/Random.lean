/-
This file draws random circuits.

Each gate reads only input pins and gates after it, so the gates form no loop
and the first gate feeds no other. A Not gate has one source, an And or Or gate
one to three. The kinds of all the gates are drawn before their sources.
-/

import Combinational.Circuit.Family
import Combinational.Random.Generator

namespace Combinational

namespace Circuit

open Combinational.Random

/-- Draws the kind of a gate. -/
def drawKind {State : Type} (below : Dice State) : StateT State Option GateKind := do
  match ← below .word64 3 with
  | 0 => return .and
  | 1 => return .or
  | _ => return .not

/-- Draws a source for the gate at a position: an input pin or a gate after it. -/
def drawSource {State : Type} (below : Dice State) (inputs gates position : Nat) :
    StateT State Option Source := do
  let draw ← below .word64 (inputs + gates - position - 1)
  return if draw < inputs then .input (draw + 1) else .gate (position + 2 + (draw - inputs))

/-- Draws how many sources a gate has. A Not gate has one without a draw. -/
def drawSourceCount {State : Type} (below : Dice State) : GateKind → StateT State Option Nat
  | .not => pure 1
  | .and | .or => do
    let draw ← below .word32 3
    return draw + 1

/-- Draws the sources of the gate at a position. -/
def drawStatement {State : Type} (below : Dice State) (inputs gates position : Nat)
    (kind : GateKind) : StateT State Option Statement := do
  let count ← drawSourceCount below kind
  let sources ← (List.range count).mapM fun _ => drawSource below inputs gates position
  return { kind, sources }

/-- Draws the gates of a circuit. -/
def drawStatements {State : Type} (below : Dice State) (inputs gates : Nat) :
    StateT State Option (List Statement) := do
  let kinds ← (List.range gates).mapM fun _ => drawKind below
  kinds.zipIdx.mapM fun (kind, position) => drawStatement below inputs gates position kind

/-- A random circuit with some input pins and gates, drawn with some dice. There must be an input
pin and a gate. -/
def drawn {State : Type} (below : Dice State) (state : State) (inputs gates : Nat) :
    Except Misuse Circuit :=
  if inputs = 0 ∨ gates = 0 then
    .error .emptyFamily
  else
    match drawStatements below inputs gates state with
    | some (statements, _) => ofFamily (assemble inputs statements)
    | none => .error .endlessDraw

/-- The random circuit that a seed determines. -/
def random (generator : Generator) (inputs gates : Nat) (seed : UInt64) : Except Misuse Circuit :=
  drawn generator.below (generator.ofSeed seed) inputs gates

end Circuit

end Combinational
