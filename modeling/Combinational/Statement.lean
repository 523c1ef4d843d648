/-
This file describes gates by the numbers of the pins and gates that they read.

A statement gives the kind of a gate and its sources in order. Input pins and
gates are numbered separately, from one, so a list of statements describes a
circuit without saying where its devices are kept.
-/

import Combinational.Device.Basic

namespace Combinational

/-- What a gate reads. -/
inductive Source
  /-- The input pin with this number. -/
  | input (number : Nat)
  /-- The gate with this number. -/
  | gate (number : Nat)
deriving DecidableEq

/-- A gate: its kind and what it reads, in order. -/
structure Statement where
  /-- The kind of the gate. -/
  kind : GateKind
  /-- What the gate reads. -/
  sources : List Source
deriving DecidableEq

/-- Whether the source is among some input pins and gates. -/
def Source.isDefined (inputs gates : Nat) : Source → Bool
  | input number => 1 ≤ number && number ≤ inputs
  | gate number => 1 ≤ number && number ≤ gates

end Combinational
