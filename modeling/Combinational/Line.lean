/-
This file describes the lines of an input that may hold any bytes.

An input is cut after each line feed. A line whose bytes are the UTF-8 form of a
text is that text, without the line feed; a line of other bytes is garbled.
-/

namespace Combinational

/-- A line of an input. -/
inductive Line
  /-- A line of text. -/
  | text (content : String)
  /-- A line that is not the UTF-8 form of a text. -/
  | garbled
deriving DecidableEq

namespace Line

/-- The line with some bytes. -/
def ofBytes (bytes : List UInt8) : Line :=
  match String.fromUTF8? ⟨bytes.toArray⟩ with
  | some content => text content
  | none => garbled

/-- The lines of an input. A line feed at the end does not begin another line. -/
def ofInput (input : List UInt8) : List Line :=
  let pieces := input.splitOn 0x0A
  (if pieces.getLast? = some [] then pieces.dropLast else pieces).map ofBytes

end Line

end Combinational
