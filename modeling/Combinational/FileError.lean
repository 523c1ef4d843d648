/-
This file lists the reasons why a file or the terminal cannot be used.
-/

namespace Combinational

/-- A failed attempt to read or create a text file, to read a line or to show something. -/
inductive FileError
  /-- Nothing has this name. -/
  | notFound
  /-- The name is that of a directory. -/
  | isDirectory
  /-- The bytes are not the UTF-8 form of a text. -/
  | invalidText
  /-- The operating system refuses for another reason, in its own words. -/
  | refused (reason : String)
deriving DecidableEq

/-- The explanation given to the user. -/
def FileError.message : FileError → String
  | notFound => "No such file or directory (os error 2)"
  | isDirectory => "Is a directory (os error 21)"
  | invalidText => "stream did not contain valid UTF-8"
  | refused reason => reason

end Combinational
