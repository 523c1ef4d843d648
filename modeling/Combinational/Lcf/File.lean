/-
This file reads circuits from description files and writes them back.
-/

import Combinational.Files
import Combinational.Lcf.Loading

namespace Combinational.Lcf

variable {m : Type → Type} [Monad m]

/-- The circuit that a file describes, and the records of reading it. -/
def loadFile (files : Files m) (path : String) :
    m (Except LoadError Circuit × List Log.Record) := do
  match ← (files.read path).run with
  | .ok text => return load text
  | .error error => return (.error (.unreadable error), [])

/-- Makes a file hold the description of a circuit. -/
def writeFile (files : Files m) (path : String) (circuit : Circuit) :
    ExceptT FileError m Unit := do
  let file ← files.create path
  files.write file (write circuit)
  files.flush file

end Combinational.Lcf
