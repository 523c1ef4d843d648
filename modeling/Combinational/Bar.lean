/-
This file describes the bar that shows the user how far a long task has come.

The bar is shown on the terminal, beside the output of the program. Whether it
can be shown is up to the terminal, so the steps that show it may fail. The end
of its line is written like the output itself, which the terminal always takes.
-/

import Combinational.FileError

namespace Combinational

/-- A bar for the steps of a task. -/
structure Bar (m : Type → Type) where
  /-- Begins a task with a number of steps. -/
  start : (total : Nat) → m Unit
  /-- Names the task. -/
  describe : (title : String) → m Unit
  /-- Shows a line above the bar. -/
  write : (line : String) → ExceptT FileError m Unit
  /-- Counts some more steps as done. -/
  update : (steps : Nat) → ExceptT FileError m Unit
  /-- Shows the bar as it is now. -/
  refresh : ExceptT FileError m Unit
  /-- Leaves the line of the bar. -/
  finish : m Unit

/-- The bar whose steps are carried over to other effects. -/
def Bar.hoist {m n : Type → Type} (carry : {Value : Type} → m Value → n Value) (bar : Bar m) :
    Bar n where
  start total := carry (bar.start total)
  describe title := carry (bar.describe title)
  write line := .mk (carry (bar.write line).run)
  update steps := .mk (carry (bar.update steps).run)
  refresh := .mk (carry bar.refresh.run)
  finish := carry bar.finish

/-! ### A bar of text -/

/-- The progress of a task, and what the terminal has shown of it. -/
structure Display where
  /-- The name of the task. -/
  title : String := ""
  /-- The number of its steps. -/
  total : Nat := 0
  /-- How many of them are done. -/
  done : Nat := 0
  /-- All that was shown. -/
  shown : String := ""
deriving DecidableEq

namespace Display

/-- Shows some more text. -/
def append (text : String) (display : Display) : Display :=
  { display with shown := display.shown ++ text }

/-- The bar, in place of the last line. -/
def line (display : Display) : String :=
  "\r" ++ display.title ++ ": " ++ display.done.repr ++ "/" ++ display.total.repr

/-- A bar that counts the steps in figures. Nothing keeps it from being shown. -/
def bar : Bar (StateM Display) where
  start total := modify ({ · with total, done := 0 })
  describe title := modify ({ · with title })
  write line := .mk (modifyGet fun display =>
    (.ok (), (display.append ("\r" ++ line ++ "\n")).append display.line))
  update steps := .mk (modifyGet fun display =>
    let display := { display with done := display.done + steps }
    (.ok (), display.append display.line))
  refresh := .mk (modifyGet fun display => (.ok (), display.append display.line))
  finish := modify (append "\n")

end Display

end Combinational
