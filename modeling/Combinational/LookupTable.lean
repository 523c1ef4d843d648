/-
This file describes Boolean functions by lookup tables.

Bit `m` of a table is the value of the function when variable `k` has the value
of bit `k` of `m`. The bits fill whole hexadecimal digits, four to a digit, and
the digits are written with the highest bits first.

Below two variables the single digit has more bits than the function has values,
which are zero. Tables are equal when all their bits are. Tables of any kind that
can be compared are grouped in the same way.
-/

import Combinational.Pattern

namespace Combinational

/-- A Boolean function of some variables, by the bits of its hexadecimal digits. -/
structure LookupTable where
  /-- The number of variables. -/
  arity : Nat
  /-- The bits of all the digits, the lowest one first. -/
  bits : Array Bool
deriving DecidableEq

namespace LookupTable

/-- The number of hexadecimal digits of a table. -/
def digitCount (arity : Nat) : Nat :=
  Pattern.count (arity - 2)

/-- The table of a function with a value for each assignment of its variables. The last digit is
filled up with zeros. -/
def ofValues (arity : Nat) (values : Array Bool) : LookupTable where
  arity := arity
  bits := values ++ Array.replicate (4 * digitCount arity - values.size) false

/-- The value of the function for an assignment, given as a number. -/
def value (table : LookupTable) (mask : Nat) : Bool :=
  match table.bits[mask]? with
  | some bit => bit
  | none => false

theorem value_ofValues {arity mask : Nat} {values : Array Bool} (inside : mask < values.size) :
    (ofValues arity values).value mask = values[mask] := by
  simp [value, ofValues, Array.getElem?_append_left inside, inside]

/-- Functions with the same values have the same table, and no others. -/
theorem ofValues_inj {arity : Nat} {first second : Array Bool} (sizes : first.size = second.size) :
    ofValues arity first = ofValues arity second ↔ first = second := by
  refine ⟨fun equal => ?_, fun equal => by rw [equal]⟩
  have bits := congrArg LookupTable.bits equal
  simp only [ofValues, sizes] at bits
  exact (Array.append_inj bits sizes).1

/-! ### Hexadecimal form -/

/-- Four bits from a position on, as a number. -/
def nibble (table : LookupTable) (position : Nat) : Nat :=
  (table.value (4 * position)).toNat + 2 * (table.value (4 * position + 1)).toNat +
    4 * (table.value (4 * position + 2)).toNat + 8 * (table.value (4 * position + 3)).toNat

/-- The table in hexadecimal, highest bits first. -/
def hex (table : LookupTable) : String :=
  String.ofList ((List.range (digitCount table.arity)).reverse.map fun position =>
    (table.nibble position).digitChar)

/-! ### Equal functions -/

section Groups

variable {Table : Type} [BEq Table]

/-- The groups of at least two equal tables among some numbered tables, by their numbers. -/
def groups (numbered : List (Table × Nat)) : List (List Nat) :=
  match numbered with
  | [] => []
  | (table, number) :: others =>
    let twins := others.filter fun other => other.1 == table
    let rest := groups (others.filter fun other => other.1 != table)
    if twins.isEmpty then rest else (number :: twins.map Prod.snd) :: rest
termination_by numbered.length
decreasing_by
  simp only [List.unattach_filter, List.unattach_attach, List.length_cons]
  exact Nat.lt_succ_of_le (List.length_filter_le ..)

/-- The groups of at least two equal tables, by their numbers counted from one. The groups are
ordered by their first members, and the members ascend. -/
def equivalent (tables : List Table) : List (List Nat) :=
  groups (tables.zipIdx 1)

end Groups

end LookupTable

end Combinational
