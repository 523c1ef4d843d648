/-
This file describes the records that operations leave in the log.
-/

namespace Combinational.Log

/-- How much a record matters. -/
inductive Level
  /-- A detail of the work in progress. -/
  | debug
  /-- A step that was completed. -/
  | info
  /-- Something the user may not have meant. -/
  | warn
deriving DecidableEq

/-- The name of a level. -/
def Level.name : Level → String
  | debug => "DEBUG"
  | info => "INFO"
  | warn => "WARN"

/-- A line of the log. -/
structure Record where
  /-- How much the record matters. -/
  level : Level
  /-- What happened. -/
  message : String
deriving DecidableEq

/-- The level and the message, separated by a space. -/
def Record.text (record : Record) : String :=
  record.level.name ++ " " ++ record.message

end Combinational.Log
