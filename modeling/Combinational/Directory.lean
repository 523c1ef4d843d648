/-
This file describes the files that the paths of a program lead to.

A directory is a file system of its own: a program that needs files can be run in
it, and the directory afterwards shows what the program did. Whether a path may
be used, and which file it leads to, is up to the directory. The path may pass
through other directories, different paths may lead to one file, and a file may
be readable and yet not be created again, or the other way round.

What is written to a file that was created arrives there.
-/

import Combinational.Files

namespace Combinational

/-- What a file holds. -/
inductive Content
  /-- The UTF-8 form of a text. -/
  | text (content : String)
  /-- Bytes that are not the UTF-8 form of a text. -/
  | garbled
deriving DecidableEq

/-- What a path is used for. -/
inductive Access
  /-- To read a file. -/
  | reading
  /-- To create a file, or to empty it if it exists. -/
  | creating
deriving DecidableEq

/-- Some files, and the paths that lead to them. -/
structure Directory where
  /-- The names and contents of the files; no name occurs twice. -/
  entries : List (String × Content)
  /-- The name of the file that a path leads to, unless the access is refused. The file need not
  exist. -/
  locate : Access → (path : String) → Except FileError String

namespace Directory

/-! ### Reading and writing -/

/-- What a file of the directory holds. -/
def find? (directory : Directory) (name : String) : Option Content :=
  directory.entries.lookup name

/-- The text of the file that a path leads to. -/
def read (directory : Directory) (path : String) : Except FileError String :=
  match directory.locate .reading path with
  | .error error => .error error
  | .ok name =>
    match directory.find? name with
    | some (.text content) => .ok content
    | some .garbled => .error .invalidText
    | none => .error .notFound

/-- The directory in which a file holds a text. -/
def write (directory : Directory) (name text : String) : Directory :=
  if (directory.find? name).isSome then
    { directory with
      entries := directory.entries.map fun (other, content) =>
        (other, if other = name then .text text else content) }
  else
    { directory with entries := directory.entries ++ [(name, .text text)] }

/-- The directory in which a file with a text holds another text behind it. -/
def append (directory : Directory) (name text : String) : Directory :=
  match directory.find? name with
  | some (.text before) => directory.write name (before ++ text)
  | some .garbled | none => directory

/-- The name of the file that was created, and the directory in which it is empty. Nothing changes
if the access is refused. -/
def create (directory : Directory) (path : String) : Except FileError String × Directory :=
  match directory.locate .creating path with
  | .error error => (.error error, directory)
  | .ok name => (.ok name, directory.write name "")

@[simp] theorem locate_write (directory : Directory) (name text : String) :
    (directory.write name text).locate = directory.locate := by
  unfold write
  split <;> rfl

theorem find?_write_self (directory : Directory) (name text : String) :
    (directory.write name text).find? name = some (.text text) := by
  obtain ⟨entries, locate⟩ := directory
  by_cases known : (List.lookup name entries).isSome
  · simp only [write, find?, known, if_true]
    induction entries with
    | nil => cases known
    | cons entry others inductionHypothesis =>
      obtain ⟨other, content⟩ := entry
      by_cases same : other = name
      · simp [same]
      · have different : (name == other) = false := by simpa using Ne.symm same
        simp only [List.lookup_cons, different, List.map_cons] at known ⊢
        exact inductionHypothesis known
  · simp only [write, find?, known]
    simp only [Bool.not_eq_true, Option.isSome_eq_false_iff, Option.isNone_iff_eq_none] at known
    simp [List.lookup_append, known]

theorem find?_write_other (directory : Directory) {name other : String} (text : String)
    (different : other ≠ name) :
    (directory.write name text).find? other = directory.find? other := by
  obtain ⟨entries, locate⟩ := directory
  have unequal : (other == name) = false := by simpa using different
  by_cases known : (List.lookup name entries).isSome
  · simp only [write, find?, known, if_true]
    clear known
    induction entries with
    | nil => rfl
    | cons entry others inductionHypothesis =>
      obtain ⟨listed, content⟩ := entry
      by_cases same : listed = name
      · simp [same, List.lookup_cons, unequal, inductionHypothesis]
      · simp [same, List.lookup_cons, inductionHypothesis]
  · simp [write, find?, known, List.lookup_append, List.lookup_cons, unequal]

/-- Only the last text of a file counts. -/
theorem write_write (directory : Directory) (name first second : String) :
    (directory.write name first).write name second = directory.write name second := by
  have known : ((directory.write name first).find? name).isSome = true := by
    rw [find?_write_self]
    rfl
  rw [write, if_pos known]
  unfold write
  split
  · simp only [List.map_map]
    congr 1
    refine List.map_congr_left fun entry _ => ?_
    by_cases same : entry.1 = name <;> simp [same]
  · next unknown =>
    have fresh : ∀ entry ∈ directory.entries, entry.1 ≠ name := by
      rintro entry listed rfl
      refine unknown (List.lookup_isSome_iff.mpr ⟨entry, listed, ?_⟩)
      exact beq_self_eq_true _
    have kept : directory.entries.map (fun (other, content) =>
        (other, if other = name then .text second else content)) = directory.entries := by
      refine (List.map_congr_left fun entry listed => ?_).trans (List.map_id _)
      simp [fresh entry listed]
    simp [kept]

/-- What is written in pieces is written in one. -/
theorem append_write (directory : Directory) (name before text : String) :
    (directory.write name before).append name text = directory.write name (before ++ text) := by
  unfold append
  rw [find?_write_self]
  exact write_write ..

/-! ### Access to the files -/

/-- Access to the files of a directory, beside other effects. -/
abbrev filesOver (m : Type → Type) [Monad m] : Files (StateT Directory m) where
  Handle := String
  read path := .mk (modifyGet fun directory => (directory.read path, directory))
  create path := .mk (modifyGet (·.create path))
  write name text := .mk (modifyGet fun directory => (.ok (), directory.append name text))
  flush _ := .mk (return .ok ())

/-- Access to the files of a directory. -/
abbrev files : Files (StateM Directory) :=
  filesOver Id

section Runs

variable {m : Type → Type} [Monad m] (directory : Directory)

theorem run_read (path : String) :
    ((filesOver m).read path).run.run directory = pure (directory.read path, directory) :=
  rfl

theorem run_create (path : String) :
    ((filesOver m).create path).run.run directory = pure (directory.create path) :=
  rfl

theorem run_write (name text : String) :
    ((filesOver m).write name text).run.run directory =
      pure (.ok (), directory.append name text) :=
  rfl

theorem run_flush (name : String) :
    ((filesOver m).flush name).run.run directory = pure (.ok (), directory) :=
  rfl

end Runs

/-! ### Files without directories between them -/

/-- The name that a path gives to a file of the directory. Steps to the directory itself may come
before the name, and paths that lead elsewhere name nothing. -/
def fileName (path : String) : Except FileError String :=
  match path.toList.splitOn '/' with
  | [] :: _ => .error .notFound
  | steps =>
    match steps.dropWhile fun step => step = ['.'] ∨ step = [] with
    | [] | [['.', '.']] => .error .isDirectory
    | [name] => .ok (String.ofList name)
    | _ => .error .notFound

/-- The directory with some files and nothing else, all of which may be read and created. -/
def flat (entries : List (String × Content)) : Directory where
  entries := entries
  locate _ := fileName

end Directory

end Combinational
