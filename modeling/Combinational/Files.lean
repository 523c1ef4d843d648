/-
This file describes what a program needs of a file system: reading a text, and
creating a file into which texts are written one after the other.
-/

import Combinational.FileError

namespace Combinational

/-- Access to text files by path. Every step may fail. -/
structure Files (m : Type → Type) where
  /-- Files that were opened for writing. -/
  Handle : Type
  /-- The text of a file. -/
  read : (path : String) → ExceptT FileError m String
  /-- Opens an empty file for writing, whether it existed or not. -/
  create : (path : String) → ExceptT FileError m Handle
  /-- Writes a text behind what was written before. -/
  write : Handle → (text : String) → ExceptT FileError m Unit
  /-- Completes what was written. -/
  flush : Handle → ExceptT FileError m Unit

end Combinational
