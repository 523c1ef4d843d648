/-
This file lists the ways in which the operations of the library can be misused.

An operation that is called outside its domain answers with a `Misuse`: the
cause, with the numbers that it involves. Some causes are explained to the
caller in words, others only say that a bound or an assertion was violated, and
`Misuse.message?` tells the two apart.
-/

import Combinational.Device.Id

namespace Combinational

/-- The reasons why an operation has no answer. -/
inductive Misuse
  /-- An identifier names no device of the circuit. -/
  | missingDevice
  /-- A list of pins, gates or rows has no entry at a position. -/
  | missingEntry
  /-- An output pin was asked to drive another device. -/
  | drivenByOutput (source : DeviceId)
  /-- No input pin has this number, counted from one. -/
  | missingInput (number count : Nat)
  /-- Not one value per input pin was given. -/
  | pinCount
  /-- A circuit was evaluated before its gates were sorted. -/
  | unsorted
  /-- The evaluation order was asked for before the gates were sorted. -/
  | noOrder
  /-- A device that forwards its first reference has none. -/
  | noReference
  /-- A listed gate is another kind of device. -/
  | notAGate
  /-- A gate holds no reference. -/
  | gateWithoutInput (gate : DeviceId)
  /-- A reference names no device of the circuit. -/
  | danglingReference (reference : DeviceId)
  /-- An output pin does not hold exactly one reference. -/
  | undrivenOutput (output : DeviceId)
  /-- A reference was given to an input pin. -/
  | inputHasNoReference
  /-- A value was assigned to a device other than an input pin. -/
  | notAnInput
  /-- The assignments of no pin at all were asked for. -/
  | noInput
  /-- There are too many pins to number their assignments. -/
  | tooManyInputs
  /-- A circuit without input pins or without gates was asked for. -/
  | emptyFamily
  /-- The gates of a family of circuits form a loop. -/
  | loopingFamily
  /-- A random draw never fell into the accepted zone. -/
  | endlessDraw
deriving DecidableEq

namespace Misuse

/-- The explanation given to the caller, if the cause has one. -/
def message? : Misuse → Option String
  | drivenByOutput source => some ("Output pin " ++ source.text ++ " cannot drive another device")
  | missingInput number count =>
    some ("Input pin " ++ number.repr ++ " does not exist, expected 1 to " ++ count.repr)
  | unsorted => some "The circuit must be sorted before evaluation"
  | gateWithoutInput gate => some ("Gate " ++ gate.text ++ " has no input")
  | danglingReference reference => some ("Invalid device " ++ reference.text)
  | undrivenOutput output => some ("Output " ++ output.text ++ " is not driven")
  | inputHasNoReference => some "Input pins have no input"
  | notAnInput => some "Only input pins can be assigned a value"
  | noInput => some "At least one input is required"
  | tooManyInputs => some "Too many inputs to enumerate"
  | missingDevice | missingEntry | pinCount | noOrder | noReference | notAGate | emptyFamily
  | loopingFamily | endlessDraw => none

end Misuse

end Combinational
