/-
This file gives the outcome of each command on a file in closed form.

A command that loads a circuit fails with the error of the load or uses a circuit that is ready, so
what it computes from the circuit exists. The values that a command simulates with are one for each
input pin if they are accepted at all: digits take one byte each, so the length in bytes that is
checked first is that of the values.
-/

import Combinational.CommandLine.Execution
import Combinational.Proofs.Dialogues
import Combinational.Proofs.Readiness
import Mathlib.Data.String.Basic

namespace Combinational.CommandLine

/-! ### Values in digits -/

/-- One digit for each value. -/
def digitsOf (values : List Bool) : List Char :=
  values.map fun value => if value then '1' else '0'

theorem readDigits_digitsOf (values : List Bool) : readDigits (digitsOf values) = .ok values := by
  induction values with
  | nil => rfl
  | cons value values inductionHypothesis =>
    cases value <;>
    · show (readDigits (digitsOf values)).map _ = _
      rw [inductionHypothesis]
      rfl

theorem eq_digitsOf_of_readDigits {characters : List Char} {values : List Bool}
    (reads : readDigits characters = .ok values) : characters = digitsOf values := by
  fun_induction readDigits characters generalizing values with
  | case1 =>
    obtain rfl := Except.ok.inj reads
    rfl
  | case2 others inductionHypothesis | case3 others inductionHypothesis =>
    cases further : readDigits others with
    | error failure =>
      rw [further] at reads
      cases reads
    | ok tail =>
      rw [further] at reads
      obtain rfl := Except.ok.inj reads
      exact congrArg (_ :: ·) (inductionHypothesis further)
  | case4 => cases reads

theorem utf8Len_digitsOf (values : List Bool) :
    String.utf8Len (digitsOf values) = values.length := by
  induction values with
  | nil => rfl
  | cons value values inductionHypothesis =>
    rw [digitsOf, List.map_cons, String.utf8Len_cons, List.length_cons]
    have digit : (if value then '1' else '0').utf8Size = 1 := by cases value <;> rfl
    rw [digit]
    exact congrArg (· + 1) inductionHypothesis

variable {generator : Random.Generator}

/-- Values that are accepted are one for each input pin. -/
theorem length_inputValues {choice : InputChoice} {seed : UInt64} {inputs : Nat}
    {values : List Bool} (accepted : inputValues generator choice seed inputs = .ok values) :
    values.length = inputs := by
  cases choice with
  | zeros =>
    obtain rfl := Except.ok.inj accepted
    exact List.length_replicate
  | random =>
    obtain rfl := Except.ok.inj accepted
    exact generator.length_bits ..
  | digits text =>
    unfold inputValues at accepted
    simp only at accepted
    split at accepted
    · next size =>
      have same := eq_digitsOf_of_readDigits accepted
      rw [← utf8Len_digitsOf, ← same, ← String.utf8ByteSize_ofList, String.ofList_toList, size]
    · cases accepted

theorem inputValues_digitsOf (generator : Random.Generator) (values : List Bool) (seed : UInt64) :
    inputValues generator (.digits (String.ofList (digitsOf values))) seed values.length =
      .ok values := by
  unfold inputValues
  simp only [String.utf8ByteSize_ofList, utf8Len_digitsOf, if_true, String.toList_ofList]
  exact readDigits_digitsOf values

theorem readDigits_ne_misuse (characters : List Char) (misuse : Misuse) :
    readDigits characters ≠ .error (.misuse misuse) := by
  fun_induction readDigits characters with
  | case1 | case4 => exact fun same => by cases same
  | case2 others inductionHypothesis | case3 others inductionHypothesis =>
    cases further : readDigits others with
    | ok values => exact fun same => by cases same
    | error failure =>
      rw [further] at inductionHypothesis
      exact fun same => inductionHypothesis (congrArg Except.error (Except.error.inj same))

theorem inputValues_ne_misuse (choice : InputChoice) (seed : UInt64) (inputs : Nat)
    (misuse : Misuse) : inputValues generator choice seed inputs ≠ .error (.misuse misuse) := by
  unfold inputValues
  split
  · split
    · exact readDigits_ne_misuse _ misuse
    · exact fun same => by cases same
  · exact fun same => by cases same
  · exact fun same => by cases same

/-! ### Texts about a ready circuit -/

section Ready

variable {circuit : Circuit} (ready : circuit.IsReady)

include ready

theorem exists_showCircuit (netlist : Bool) : ∃ text, showCircuit netlist circuit = .ok text := by
  obtain ⟨statistics, computed⟩ := ready.exists_statistics
  unfold showCircuit
  rw [computed]
  exact ⟨_, rfl⟩

theorem exists_showFunctions : ∃ text, showFunctions circuit = .ok text := by
  obtain ⟨functions, computed⟩ := ready.exists_outputFunctions
  unfold showFunctions
  rw [computed]
  exact ⟨_, rfl⟩

theorem showTable_eq :
    showTable circuit = .ok ("Truth table:\n" ++ circuit.fullTable.text ++ "\n") := by
  unfold showTable
  rw [ready.evaluateAll_eq]
  rfl

/-- A simulation is refused for its values only. -/
theorem simulateCircuit_eq (choice : InputChoice) (seed : UInt64) :
    simulateCircuit generator choice seed circuit =
      (inputValues generator choice seed circuit.inputCount).map fun values =>
        "Simulation Result:\n" ++ circuit.report values ++ "\n" := by
  unfold simulateCircuit
  cases accepted : inputValues generator choice seed circuit.inputCount with
  | error failure => rfl
  | ok values =>
    have length := length_inputValues accepted
    have assigns := ready.setInputs_eq length
    show (((circuit.setInputs values >>= Circuit.evaluateOnce).mapError Failure.misuse) >>= _) = _
    rw [assigns]
    show (((circuit.assigned values).evaluateOnce.mapError Failure.misuse) >>= _) = _
    rw [ready.evaluateOnce_eq length]
    rfl

end Ready

/-! ### Commands on a file -/

section Commands

variable {m : Type → Type} [Monad m] [LawfulMonad m] {directory : Directory} {path : String}
  {circuit : Circuit} {log : List Log.Record}

theorem run_onCircuit_of_ok (loads : directory.load path = (.ok circuit, log))
    (use : Circuit → List Log.Record → StateT Directory m Outcome) :
    (onCircuit (Directory.filesOver m) path use).run directory =
      (use circuit log).run directory := by
  rw [onCircuit, StateT.run_bind, Lcf.run_loadFile, loads, pure_bind]

theorem run_onCircuit_of_error {error : LoadError}
    (fails : directory.load path = (.error error, log))
    (use : Circuit → List Log.Record → StateT Directory m Outcome) :
    (onCircuit (Directory.filesOver m) path use).run directory =
      pure (.ofText log (.error (.load path error)), directory) := by
  rw [onCircuit, StateT.run_bind, Lcf.run_loadFile, fails, pure_bind]
  rfl

theorem run_showOn_of_ok (loads : directory.load path = (.ok circuit, log))
    (use : Circuit → Except Failure String) :
    (showOn (Directory.filesOver m) path use).run directory =
      pure (.ofText log (use circuit), directory) := by
  rw [showOn, run_onCircuit_of_ok loads]
  rfl

end Commands

end Combinational.CommandLine
