/-
This file lays out the values of input and output pins as tables of text.

A table has a header of three lines, which names and numbers the pins, and one
line of values per row.
-/

import Combinational.Misuse

namespace Combinational

/-- The values of the pins for one assignment. -/
structure Row where
  /-- The values of the input pins, in order. -/
  inputs : List Bool
  /-- The values of the output pins, in order. -/
  outputs : List Bool
deriving DecidableEq

/-- The rows of a simulation. -/
structure TruthTable where
  /-- The number of input pins. -/
  inputCount : Nat
  /-- The number of output pins. -/
  outputCount : Nat
  /-- The rows, in order. -/
  rows : Array Row
deriving DecidableEq

namespace TruthTable

/-- The row at a position, counted from zero. A position behind the last row is a misuse. -/
def row (table : TruthTable) (index : Nat) : Except Misuse Row :=
  match table.rows[index]? with
  | some row => .ok row
  | none => .error .missingEntry

theorem row_eq_ok_iff {table : TruthTable} {index : Nat} {row : Row} :
    table.row index = .ok row ↔ table.rows[index]? = some row := by
  unfold TruthTable.row
  split <;> simp [*]

/-- One digit per value. -/
def digits (values : List Bool) : List String :=
  values.map fun value => if value then "1" else "0"

/-- The entries for the input pins and for the output pins, separated by a bar. -/
def columns (inputs outputs : List String) : String :=
  String.intercalate " " inputs ++ " | " ++ String.intercalate " " outputs

/-- The numbers from one, as text. -/
def numbers (count : Nat) : List String :=
  (List.range' 1 count).map Nat.repr

/-- The dashes under the entries of some pins. -/
def rule (count : Nat) : String :=
  String.join (List.replicate count "--")

/-- The names of the pins, their numbers and a rule, in three lines. -/
def header (inputCount outputCount : Nat) : String :=
  columns (List.replicate inputCount "i") (List.replicate outputCount "o") ++ "\n" ++
  columns (numbers inputCount) (numbers outputCount) ++ "\n" ++
  rule inputCount ++ "+" ++ rule outputCount

end TruthTable

/-- The values of a row, in one line. -/
def Row.text (row : Row) : String :=
  TruthTable.columns (TruthTable.digits row.inputs) (TruthTable.digits row.outputs)

/-- The header, and one line per row. -/
def TruthTable.text (table : TruthTable) : String :=
  table.rows.foldl (fun text row => text ++ "\n" ++ row.text)
    (header table.inputCount table.outputCount)

end Combinational
