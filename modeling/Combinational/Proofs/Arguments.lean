/-
This file proves which commands some arguments give.

A simulation is asked for by the name of a file and by a text of digits. The text stands where a
value is expected, so it is taken as this value unless it looks like a parameter. Then it is
refused, and it is no text of digits either, for it begins with a dash.
-/

import Combinational.CommandLine.Arguments

namespace Combinational.CommandLine

/-- An answer that refuses the arguments, where others are texts about the program. -/
def UsageError.IsRefusal (error : UsageError) : Prop :=
  error ≠ .displayHelp ∧ error ≠ .displayVersion

/-! ### Words -/

namespace Progress

/-- An argument without a dash in front is a word. -/
theorem take_of_word {signature : Signature} {progress : Progress} {word : String}
    (unlocked : progress.literal = false) (plain : word.toList.head? ≠ some '-') :
    progress.take signature word = progress.takeWord signature word := by
  unfold take
  rw [unlocked]
  cases characters : word.toList with
  | nil => rfl
  | cons first others =>
    have different : first ≠ '-' := by
      rintro rfl
      exact plain (by rw [characters]; rfl)
    simp [different]

/-! ### Where a value is expected -/

section Awaiting

variable {progress : Progress} {parameter : Parameter}
  (awaits : progress.pending = some (parameter, none))

include awaits

theorem settlePending_of_awaiting : progress.settlePending = .error .invalidValue := by
  rw [settlePending, awaits]

theorem takeFlag_of_awaiting (other : Parameter) :
    progress.takeFlag other = .error .invalidValue := by
  rw [takeFlag, settlePending_of_awaiting awaits]
  rfl

theorem takeAttached_of_awaiting (other : Parameter) (value : String) :
    progress.takeAttached other value = .error .invalidValue := by
  rw [takeAttached, settlePending_of_awaiting awaits]
  rfl

theorem await_of_awaiting (other : Parameter) : progress.await other = .error .invalidValue := by
  rw [await, settlePending_of_awaiting awaits]
  rfl

theorem exists_takeLong_of_awaiting (signature : Signature) (name : List Char) :
    ∃ error, progress.takeLong signature name = .error error ∧ error.IsRefusal := by
  unfold takeLong
  split
  · exact ⟨_, rfl, nofun, nofun⟩
  · split
    · exact ⟨_, await_of_awaiting awaits _, nofun, nofun⟩
    · exact ⟨_, takeFlag_of_awaiting awaits _, nofun, nofun⟩
  · split
    · exact ⟨_, takeAttached_of_awaiting awaits _ _, nofun, nofun⟩
    · exact ⟨_, rfl, nofun, nofun⟩

theorem exists_takeLetters_of_awaiting (signature : Signature) (letter : Char)
    (others : List Char) :
    ∃ error, progress.takeLetters signature (letter :: others) = .error error ∧
      error.IsRefusal := by
  unfold takeLetters
  split
  · exact ⟨_, rfl, nofun, nofun⟩
  · split
    · split
      · exact ⟨_, await_of_awaiting awaits _, nofun, nofun⟩
      · exact ⟨_, takeAttached_of_awaiting awaits _ _, nofun, nofun⟩
    · rw [takeFlag_of_awaiting awaits]
      exact ⟨_, rfl, nofun, nofun⟩

theorem takeWord_of_awaiting (signature : Signature) (word : String) :
    progress.takeWord signature word =
      .ok { progress with pending := some (parameter, some word) } := by
  unfold takeWord
  rw [awaits]

/-- The last argument is the expected value, or it names a parameter and is refused. -/
theorem take_of_awaiting (unlocked : progress.literal = false) (signature : Signature)
    (argument : String) :
    progress.take signature argument =
        .ok { progress with pending := some (parameter, some argument) } ∨
      argument.toList.head? = some '-' ∧ ∃ error,
        (progress.take signature argument >>= settlePending) = .error error ∧
          error.IsRefusal := by
  have last : ({ progress with literal := true } : Progress).settlePending =
      .error .invalidValue := settlePending_of_awaiting awaits
  unfold take
  rw [if_neg (by rw [unlocked]; decide)]
  split
  · next characters => exact .inr ⟨by rw [characters]; rfl, _, last, nofun, nofun⟩
  · next name _ characters =>
    obtain ⟨error, refused, refusal⟩ := exists_takeLong_of_awaiting awaits signature name
    rw [refused]
    exact .inr ⟨by rw [characters]; rfl, error, rfl, refusal⟩
  · next letter others _ _ characters =>
    obtain ⟨error, refused, refusal⟩ :=
      exists_takeLetters_of_awaiting awaits signature letter others
    rw [refused]
    exact .inr ⟨by rw [characters]; rfl, error, rfl, refusal⟩
  · exact .inl (takeWord_of_awaiting awaits signature argument)

end Awaiting

end Progress

/-! ### Commands -/

/-- The progress after the name of a file and the letter that asks for digits. -/
def awaitingDigits (file : String) : Progress where
  given := [("file", file)]
  pending := some ({ long := "input", short := some 'i', shape := .text }, none)
  hasFile := true

section Arguments

variable {file : String} (named : file.isEmpty = false) (plain : file.toList.head? ≠ some '-')

include named plain

/-- A simulation of a file with a text of digits is asked for, unless the text looks like a
parameter. -/
theorem readArguments_simulate_or_refused (digits : String) :
    readArguments ["simulate", file, "-i", digits] = .ok (.simulate file (.digits digits) 1) ∨
      digits.toList.head? = some '-' ∧ ∃ error,
        readArguments ["simulate", file, "-i", digits] = .error error ∧ error.IsRefusal := by
  have first : ({} : Progress).take Subcommand.simulate.signature file =
      .ok { pending := some (fileParameter, some file), hasFile := true } :=
    Progress.take_of_word rfl plain
  have second : Progress.take Subcommand.simulate.signature
      { pending := some (fileParameter, some file), hasFile := true } "-i" =
        .ok (awaitingDigits file) := by
    simp [Progress.take, Progress.takeLetters, Subcommand.signature, Subcommand.parameters,
      Progress.await, Progress.settlePending, Progress.settle, Shape.check, fileParameter, named,
      Shape.takesValue, awaitingDigits, Functor.map, Except.map]
  have reads : readArguments ["simulate", file, "-i", digits] =
      (((awaitingDigits file).take Subcommand.simulate.signature digits >>=
        Progress.settlePending) >>= fun settled => Subcommand.simulate.command settled.given) := by
    show (readParameters Subcommand.simulate.signature [file, "-i", digits] >>= fun given =>
      Subcommand.simulate.command given) = _
    simp only [readParameters, List.foldlM_cons, List.foldlM_nil, first, second, bind, Except.bind,
      pure, Except.pure]
    cases (awaitingDigits file).take Subcommand.simulate.signature digits with
    | error error => rfl
    | ok final => cases settled : final.settlePending <;> simp only [settled]
  obtain taken | ⟨dash, error, refused, refusal⟩ :=
    Progress.take_of_awaiting (rfl : (awaitingDigits file).pending = _) rfl
      Subcommand.simulate.signature digits
  · rw [reads, taken]
    exact .inl rfl
  · rw [reads, refused]
    exact .inr ⟨dash, error, rfl, refusal⟩

theorem readArguments_simulate {digits : String} (values : digits.toList.head? ≠ some '-') :
    readArguments ["simulate", file, "-i", digits] = .ok (.simulate file (.digits digits) 1) :=
  (readArguments_simulate_or_refused named plain digits).resolve_right fun refused =>
    values refused.1

theorem readArguments_truthTable :
    readArguments ["truth-table", file] = .ok (.truthTable file none) := by
  have first : ({} : Progress).take Subcommand.truthTable.signature file =
      .ok { pending := some (fileParameter, some file), hasFile := true } :=
    Progress.take_of_word rfl plain
  have given : readParameters Subcommand.truthTable.signature [file] = .ok [("file", file)] := by
    simp only [readParameters, List.foldlM_cons, List.foldlM_nil, first, bind, Except.bind, pure,
      Except.pure]
    simp [Progress.settlePending, Progress.settle, Shape.check, fileParameter, named,
      Functor.map, Except.map]
  show (readParameters Subcommand.truthTable.signature [file] >>= fun given =>
    Subcommand.truthTable.command given) = _
  rw [given]
  rfl

end Arguments

end Combinational.CommandLine
