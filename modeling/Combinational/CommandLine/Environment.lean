/-
This file describes what the commands of the command line find around them.
-/

import Combinational.Bar
import Combinational.Directory
import Combinational.Random.Generator

namespace Combinational.CommandLine

/-- The files, the terminal and the random numbers that commands use. -/
structure Environment (m : Type → Type) where
  /-- The files. -/
  files : Files m
  /-- The bar on the terminal. -/
  bar : Bar m
  /-- The generator of random numbers. -/
  generator : Random.Generator

/-- The files of a directory, beside the terminal with a bar and the numbers of a generator. -/
def Environment.inDirectory {m : Type → Type} [Monad m] (bar : Bar m)
    (generator : Random.Generator) : Environment (StateT Directory m) where
  files := Directory.filesOver m
  bar := bar.hoist StateT.lift
  generator := generator

end Combinational.CommandLine
