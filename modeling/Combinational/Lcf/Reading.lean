/-
This file reads circuit descriptions from text.

Lines are separated by single line feeds, of which one more may end the text, and
the words of a line by single spaces. Every number is a numeral, which stands for
at most `2 ^ 64 - 1`.

The numbers are not compared with each other here: whether the declared counts
are met and the sources exist is not a question of form.
-/

import Combinational.Lcf.Description
import Combinational.Text.Numeral

namespace Combinational.Lcf

/-- The largest number that a numeral stands for. -/
def largestNumber : Nat := UInt64.size - 1

/-- The number that a numeral stands for; numerals of larger numbers stand for the largest
one. -/
def number? (characters : List Char) : Option Nat :=
  (Text.numeral? characters).map (min · largestNumber)

/-- The source that a word denotes. -/
def readSource? : List Char → Option Source
  | '-' :: pin => (number? pin).map .input
  | word =>
    match word.splitOn '.' with
    | [gate, terminal] =>
      if Text.isNumeral terminal then (number? gate).map .gate else none
    | _ => none

/-- The kind of gate that a word denotes. -/
def readKind? : List Char → Option GateKind
  | ['1'] => some .and
  | ['2'] => some .or
  | ['3'] => some .not
  | _ => none

/-- The statement that a line denotes: a kind, at least one source, and a final `0`. -/
def readStatement? (line : List Char) : Option Statement :=
  match line.splitOn ' ' with
  | code :: source :: others =>
    if others.getLast? = some ['0'] then do
      let kind ← readKind? code
      let sources ← (source :: others.dropLast).mapM readSource?
      return { kind, sources }
    else
      none
  | _ => none

/-- The lines of a text. A line feed at its end does not begin another line. -/
def lines (text : List Char) : List (List Char) :=
  (if text.getLast? = some '\n' then text.dropLast else text).splitOn '\n'

/-- The description that a text denotes. -/
def read? (text : String) : Option Description :=
  match lines text.toList with
  | inputs :: gates :: first :: others => do
    let inputs ← number? inputs
    let gates ← number? gates
    let statements ← (first :: others).mapM readStatement?
    return { inputs, gates, statements }
  | _ => none

/-- Whether a text denotes a description. -/
def isWellFormed (text : String) : Bool :=
  (read? text).isSome

end Combinational.Lcf
