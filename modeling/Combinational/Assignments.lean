/-
This file enumerates the assignments of a set of input pins.

Assignment `i` is the binary form of `i`, the first pin carrying the most
significant bit, and the assignments come in ascending order. An enumeration
remembers how many assignments it has passed.
-/

import Combinational.Misuse
import Combinational.Pattern

namespace Combinational

/-- An enumeration of the assignments of some input pins. -/
structure Assignments where
  /-- The number of input pins. -/
  width : Nat
  /-- The number of the next assignment. -/
  next : Nat
  /-- The number after the last assignment. -/
  stop : Nat
deriving DecidableEq

namespace Assignments

/-- The enumeration of all the assignments of some input pins. There must be an input pin, and
fewer than 64 of them. -/
def all (width : Nat) : Except Misuse Assignments :=
  if width = 0 then .error .noInput
  else if 64 ≤ width then .error .tooManyInputs
  else .ok { width, next := 0, stop := Pattern.count width }

/-- How many assignments are still to come. -/
def remaining (assignments : Assignments) : Nat :=
  assignments.stop - assignments.next

/-- The next assignment and the enumeration after it. -/
def next? (assignments : Assignments) : Option (List Bool × Assignments) :=
  if assignments.next < assignments.stop then
    some (Pattern.bigEndian assignments.width assignments.next,
      { assignments with next := assignments.next + 1 })
  else
    none

/-- The enumeration after some more assignments, or at its end. -/
def skip (assignments : Assignments) (count : Nat) : Assignments :=
  { assignments with next := min (assignments.next + count) assignments.stop }

/-- Passes over some assignments and gives the one after them, and the enumeration that is
left. -/
def nth (assignments : Assignments) (count : Nat) : Option (List Bool) × Assignments :=
  match (assignments.skip count).next? with
  | some (assignment, rest) => (some assignment, rest)
  | none => (none, assignments.skip count)

/-- The assignments still to come. -/
def toList (assignments : Assignments) : List (List Bool) :=
  (List.range' assignments.next assignments.remaining).map (Pattern.bigEndian assignments.width)

/-- The enumeration when nothing is left. -/
def exhausted (assignments : Assignments) : Assignments :=
  assignments.skip assignments.remaining

theorem remaining_of_next? {assignments rest : Assignments} {assignment : List Bool}
    (more : assignments.next? = some (assignment, rest)) :
    assignments.remaining = rest.remaining + 1 := by
  unfold next? at more
  split at more
  · cases more
    simp only [remaining]
    omega
  · cases more

/-- The assignments still to come are the next one and those that come after it. -/
theorem toList_of_next? {assignments rest : Assignments} {assignment : List Bool}
    (more : assignments.next? = some (assignment, rest)) :
    assignments.toList = assignment :: rest.toList := by
  have count := remaining_of_next? more
  unfold next? at more
  split at more
  · cases more
    simp only [toList, count, List.range'_succ, List.map_cons]
  · cases more

theorem length_toList (assignments : Assignments) :
    assignments.toList.length = assignments.remaining := by
  simp [toList]

end Assignments

/-- All the assignments of some input pins, in ascending order. -/
def generateAssignments (width : Nat) : Except Misuse (List (List Bool)) :=
  (Assignments.all width).map Assignments.toList

end Combinational
