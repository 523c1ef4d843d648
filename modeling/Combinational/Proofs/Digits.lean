/-
This file proves which texts a simulation accepts as the values of the input pins.

The length of the text is measured in bytes and its characters are read one by one. A digit takes
one byte, so both checks together accept the texts with one digit per pin and no others. A text that
is refused is refused for its number of bytes, or else for its first character that is no digit,
whatever the circuit is apart from its number of pins. The values that are accepted, the random ones
and the false ones are as many as the pins, so they can be assigned.
-/

import Combinational.Proofs.Arguments
import Combinational.Proofs.Attempts
import Combinational.Proofs.Execution

namespace Combinational

/-! ### Assigning as many values as there are pins -/

theorem foldlM_ne_error {Failure State Item : Type} {step : State → Item → Except Failure State}
    {failure : Failure} (proper : ∀ state item, step state item ≠ .error failure)
    (items : List Item) (state : State) : items.foldlM step state ≠ .error failure := by
  induction items generalizing state with
  | nil => exact fun fails => by cases fails
  | cons item items inductionHypothesis =>
    rw [List.foldlM_cons]
    cases steps : step state item with
    | ok next => exact inductionHypothesis next
    | error other =>
      intro fails
      obtain rfl := Except.error.inj fails
      exact proper state item steps

namespace Circuit

theorem setInput_ne_pinCount (circuit : Circuit) (number : Nat) (value : Bool) :
    circuit.setInput number value ≠ .error .pinCount := by
  intro fails
  unfold setInput at fails
  split at fails
  · cases fails
  · split at fails
    · next id _ =>
      unfold change device at fails
      cases found : circuit.devices[id.index]? with
      | none =>
        rw [found] at fails
        cases fails
      | some device =>
        rw [found] at fails
        cases device <;> cases fails
    · cases fails

/-- The number of the values is blamed exactly if it is not that of the pins. -/
theorem setInputs_eq_pinCount_iff (circuit : Circuit) (values : List Bool) :
    circuit.setInputs values = .error .pinCount ↔ values.length ≠ circuit.inputCount := by
  unfold setInputs
  split
  · next length =>
    refine iff_of_false ?_ (not_not_intro length)
    have proper (state : Circuit) (item : Bool × Nat) :
        state.setInput item.2 item.1 ≠ .error .pinCount :=
      setInput_ne_pinCount state item.2 item.1
    exact foldlM_ne_error proper _ circuit
  · next different => exact iff_of_true rfl different

end Circuit

namespace CommandLine

/-! ### Digits -/

/-- Whether a character is a digit for a value. -/
def isDigit (character : Char) : Bool :=
  character = '0' ∨ character = '1'

/-- The value that a digit stands for. -/
def digitValue (character : Char) : Bool :=
  character = '1'

/-- A text with one digit per pin. -/
def IsDigits (inputs : Nat) (text : String) : Prop :=
  text.toList.length = inputs ∧ ∀ character ∈ text.toList, isDigit character = true

/-- Why a text is refused: its length in bytes, or else its first character that is no digit. -/
inductive Refuses (inputs : Nat) (text : String) : Failure → Prop
  /-- The number of bytes is not that of the pins. -/
  | length (different : text.utf8ByteSize ≠ inputs) :
    Refuses inputs text (.valueCount inputs text.utf8ByteSize)
  /-- The number of bytes is that of the pins. -/
  | character {character : Char} (same : text.utf8ByteSize = inputs)
    (first : text.toList.find? (fun character => !isDigit character) = some character) :
    Refuses inputs text (.valueDigit character)

/-- A text is refused for one reason. -/
theorem Refuses.unique {inputs : Nat} {text : String} {failure other : Failure}
    (refuses : Refuses inputs text failure) (again : Refuses inputs text other) :
    failure = other := by
  cases refuses with
  | length different =>
    cases again with
    | length => rfl
    | character same => exact absurd same different
  | character same first =>
    cases again with
    | length different => exact absurd same different
    | character _ found => rw [Option.some.inj (first.symm.trans found)]

theorem eq_digitsOf_of_forall {characters : List Char}
    (digits : ∀ character ∈ characters, isDigit character = true) :
    characters = digitsOf (characters.map digitValue) := by
  have written : ∀ character ∈ characters,
      (if digitValue character then '1' else '0') = character := by
    intro character member
    obtain rfl | rfl : character = '0' ∨ character = '1' :=
      of_decide_eq_true (digits character member)
    · rfl
    · rfl
  rw [digitsOf, List.map_map]
  exact (List.map_id characters).symm.trans (List.map_congr_left written).symm

theorem readDigits_of_forall {characters : List Char}
    (digits : ∀ character ∈ characters, isDigit character = true) :
    readDigits characters = .ok (characters.map digitValue) :=
  (congrArg readDigits (eq_digitsOf_of_forall digits)).trans (readDigits_digitsOf _)

theorem readDigits_of_find? {characters : List Char} {character : Char}
    (first : characters.find? (fun character => !isDigit character) = some character) :
    readDigits characters = .error (.valueDigit character) := by
  fun_induction readDigits characters with
  | case1 => cases first
  | case2 others inductionHypothesis | case3 others inductionHypothesis =>
    rw [inductionHypothesis first]
    rfl
  | case4 other others notZero notOne =>
    have foreign : isDigit other = false := decide_eq_false fun digit => digit.elim notZero notOne
    rw [List.find?_cons_of_pos (by rw [foreign]; rfl)] at first
    obtain rfl := Option.some.inj first
    rfl

/-- Digits take one byte each. -/
theorem IsDigits.utf8ByteSize_eq {inputs : Nat} {text : String} (digits : IsDigits inputs text) :
    text.utf8ByteSize = inputs := by
  rw [← String.ofList_toList (s := text), String.utf8ByteSize_ofList,
    eq_digitsOf_of_forall digits.2, utf8Len_digitsOf, List.length_map, digits.1]

theorem IsDigits.length_values {inputs : Nat} {text : String} (digits : IsDigits inputs text) :
    (text.toList.map digitValue).length = inputs := by
  rw [List.length_map, digits.1]

/-- Digits do not look like a parameter. -/
theorem IsDigits.head?_ne {inputs : Nat} {text : String} (digits : IsDigits inputs text) :
    text.toList.head? ≠ some '-' := fun dash => by
  have digit := digits.2 '-' (List.mem_of_mem_head? dash)
  exact absurd digit (by decide)

section Values

variable (generator : Random.Generator)

theorem inputValues_digits (text : String) (seed : UInt64) (inputs : Nat) :
    inputValues generator (.digits text) seed inputs =
      if text.utf8ByteSize = inputs then readDigits text.toList
      else .error (.valueCount inputs text.utf8ByteSize) :=
  rfl

theorem inputValues_of_isDigits {inputs : Nat} {text : String} (digits : IsDigits inputs text)
    (seed : UInt64) :
    inputValues generator (.digits text) seed inputs = .ok (text.toList.map digitValue) := by
  rw [inputValues_digits, if_pos digits.utf8ByteSize_eq]
  exact readDigits_of_forall digits.2

end Values

/-- A text that is as long in bytes as digits would be has another character if it is refused. -/
theorem exists_refuses {inputs : Nat} {text : String} (other : ¬ IsDigits inputs text) :
    ∃ failure, Refuses inputs text failure ∧
      ∀ generator seed, inputValues generator (.digits text) seed inputs = .error failure := by
  by_cases length : text.utf8ByteSize = inputs
  · cases first : text.toList.find? fun character => !isDigit character with
    | some character =>
      refine ⟨_, .character length first, fun generator seed => ?_⟩
      rw [inputValues_digits, if_pos length]
      exact readDigits_of_find? first
    | none =>
      have digits : ∀ character ∈ text.toList, isDigit character = true := by
        intro character member
        simpa using List.find?_eq_none.mp first character member
      have counted : IsDigits text.toList.length text := ⟨rfl, digits⟩
      exact absurd ⟨counted.utf8ByteSize_eq.symm.trans length, digits⟩ other
  · exact ⟨_, .length length, fun generator seed => if_neg length⟩

/-! ### Simulations -/

/-- A simulation with digits assigns them to the pins in order and evaluates once. -/
theorem exists_simulateCircuit {circuit : Circuit} (wellFormed : circuit.WellFormed)
    (small : circuit.devices.size ≤ UInt32.size) {text : String}
    (digits : IsDigits circuit.inputCount text) (generator : Random.Generator) (seed : UInt64) :
    ∃ assigned, circuit.setInputs (text.toList.map digitValue) = .ok assigned ∧
      assigned.inputValues = text.toList.map digitValue ∧
      simulateCircuit generator (.digits text) seed circuit =
        (assigned.evaluateOnce.mapError .misuse).map fun table =>
          "Simulation Result:\n" ++ table ++ "\n" := by
  have length := digits.length_values
  refine ⟨_, Circuit.setInputs_eq wellFormed small length,
    Circuit.inputValues_assigned wellFormed small length, ?_⟩
  unfold simulateCircuit
  rw [inputValues_of_isDigits generator digits]
  show (((circuit.setInputs (text.toList.map digitValue) >>= Circuit.evaluateOnce).mapError
    Failure.misuse) >>= _) = _
  rw [Circuit.setInputs_eq wellFormed small length]
  rfl

/-- Values that are refused are never assigned. -/
theorem simulateCircuit_of_error {generator : Random.Generator} {choice : InputChoice}
    {seed : UInt64} {circuit : Circuit} {failure : Failure}
    (refused : inputValues generator choice seed circuit.inputCount = .error failure) :
    simulateCircuit generator choice seed circuit = .error failure := by
  unfold simulateCircuit
  rw [refused]
  rfl

/-- The command succeeded exactly for digits, which were assigned to the pins in order, and showed
the outputs for them. Any other text was refused. -/
structure EndsWithDigits (circuit : Circuit) (text : String) (log : List Log.Record)
    (outcome : Outcome) : Prop where
  ok_iff : outcome.result = .ok () ↔ IsDigits circuit.inputCount text
  shows : IsDigits circuit.inputCount text → ∃ assigned table,
    circuit.setInputs (text.toList.map digitValue) = .ok assigned ∧
    assigned.inputValues = text.toList.map digitValue ∧
    assigned.evaluateOnce = .ok table ∧
    outcome = .ofText log (.ok ("Simulation Result:\n" ++ table ++ "\n"))
  refuses : ¬ IsDigits circuit.inputCount text → ∃ failure,
    Refuses circuit.inputCount text failure ∧ outcome = .ofText log (.error failure)

section Runs

variable {m : Type → Type} [Monad m] [LawfulMonad m] (bar : Bar m) (generator : Random.Generator)
  {directory : Directory} {file : String} (seed : UInt64) (lines : List Line)

theorem exists_run_simulate {circuit : Circuit} {log : List Log.Record}
    (loads : directory.load file = (.ok circuit, log)) (text : String) : ∃ outcome,
      ((Command.simulate file (.digits text) seed).run (.inDirectory bar generator) lines).run
        directory = pure (outcome, directory) ∧
      EndsWithDigits circuit text log outcome := by
  have ready := (Menu.isReady_of_directory_load (congrArg Prod.fst loads)).1
  refine ⟨_, run_showOn_of_ok loads (simulateCircuit generator (.digits text) seed), ?_⟩
  by_cases digits : IsDigits circuit.inputCount text
  · have length := digits.length_values
    rw [simulateCircuit_eq ready, inputValues_of_isDigits generator digits]
    refine ⟨iff_of_true rfl digits, fun _ => ?_, fun other => absurd digits other⟩
    exact ⟨_, _, ready.setInputs_eq length,
      Circuit.inputValues_assigned ready.wellFormed ready.small.le length,
      ready.evaluateOnce_eq length, rfl⟩
  · obtain ⟨failure, refuses, refused⟩ := exists_refuses digits
    rw [simulateCircuit_of_error (refused generator seed)]
    exact ⟨iff_of_false (fun succeeds => by cases succeeds) digits,
      fun others => absurd others digits, fun _ => ⟨failure, refuses, rfl⟩⟩

/-- No simulation misuses the circuit that it loads. -/
theorem exists_run_simulate_ne_misuse (directory : Directory) (file : String)
    (choice : InputChoice) : ∃ outcome,
      ((Command.simulate file choice seed).run (.inDirectory bar generator) lines).run directory =
        pure (outcome, directory) ∧
      ∀ misuse, outcome.result ≠ .error (.misuse misuse) := by
  cases loads : directory.load file with
  | mk loaded log =>
    cases loaded with
    | error error => exact ⟨_, run_onCircuit_of_error loads _, fun _ same => by cases same⟩
    | ok circuit =>
      refine ⟨_, run_showOn_of_ok loads (simulateCircuit generator choice seed), ?_⟩
      rw [simulateCircuit_eq (Menu.isReady_of_directory_load (congrArg Prod.fst loads)).1]
      cases accepted : inputValues generator choice seed circuit.inputCount with
      | ok values => exact fun _ same => by cases same
      | error failure =>
        intro misuse same
        obtain rfl := Except.error.inj same
        exact inputValues_ne_misuse choice seed circuit.inputCount misuse accepted

end Runs

/-- Digits are never mistaken for a parameter. Another text may be refused as an argument already,
because it looks like one. -/
theorem readArguments_simulate_digits {file : String} (named : file.isEmpty = false)
    (plain : file.toList.head? ≠ some '-') (text : String) :
    readArguments ["simulate", file, "-i", text] = .ok (.simulate file (.digits text) 1) ∨
      (∀ inputs, ¬ IsDigits inputs text) ∧ ∃ error,
        readArguments ["simulate", file, "-i", text] = .error error ∧ error.IsRefusal :=
  (readArguments_simulate_or_refused named plain text).imp_right fun refused =>
    ⟨fun _ digits => digits.head?_ne refused.1, refused.2⟩

/-! ### Main statement -/

/-- A text is accepted exactly if it has one digit per pin and nothing else, and the pins get the
values of the digits in order. Any other text is refused by a failure that depends on the number of
pins only, before a value is assigned. However the values are chosen, they are as many as the pins
of the circuit, so their number is never blamed. -/
theorem simulate_digits_spec (generator : Random.Generator) (text : String) (seed : UInt64) :
    (∀ circuit : Circuit, circuit.Reachable → circuit.devices.size < UInt32.size →
      IsDigits circuit.inputCount text → ∃ assigned,
        circuit.setInputs (text.toList.map digitValue) = .ok assigned ∧
        assigned.inputValues = text.toList.map digitValue ∧
        simulateCircuit generator (.digits text) seed circuit =
          (assigned.evaluateOnce.mapError .misuse).map fun table =>
            "Simulation Result:\n" ++ table ++ "\n") ∧
    (∀ inputs, ¬ IsDigits inputs text → ∃ failure, Refuses inputs text failure ∧
      ∀ circuit : Circuit, circuit.inputCount = inputs →
        simulateCircuit generator (.digits text) seed circuit = .error failure) ∧
    (∀ (m : Type → Type) [Monad m] [LawfulMonad m] (bar : Bar m) (directory : Directory)
      (file : String) (lines : List Line) (circuit : Circuit) (log : List Log.Record),
      directory.load file = (.ok circuit, log) → ∃ outcome,
        ((Command.simulate file (.digits text) seed).run (.inDirectory bar generator) lines).run
          directory = pure (outcome, directory) ∧
        EndsWithDigits circuit text log outcome) ∧
    (∀ (choice : InputChoice) (circuit : Circuit),
      (∀ values, inputValues generator choice seed circuit.inputCount = .ok values →
        circuit.setInputs values ≠ .error .pinCount) ∧
      ∀ (m : Type → Type) [Monad m] [LawfulMonad m] (bar : Bar m) (directory : Directory)
        (file : String) (lines : List Line), ∃ outcome,
        ((Command.simulate file choice seed).run (.inDirectory bar generator) lines).run directory =
          pure (outcome, directory) ∧
        outcome.result ≠ .error (.misuse .pinCount)) := by
  refine ⟨fun circuit reachable small digits => ?_, fun inputs other => ?_,
    fun m _ _ bar directory file lines circuit log loads => ?_,
    fun choice circuit => ⟨?_, fun m _ _ bar directory file lines => ?_⟩⟩
  · exact exists_simulateCircuit (reachable.wellFormed small) small.le digits generator seed
  · obtain ⟨failure, refuses, refused⟩ := exists_refuses other
    refine ⟨failure, refuses, ?_⟩
    rintro circuit rfl
    exact simulateCircuit_of_error (refused generator seed)
  · exact exists_run_simulate bar generator seed lines loads text
  · exact fun values accepted blamed =>
      (Circuit.setInputs_eq_pinCount_iff circuit values).mp blamed (length_inputValues accepted)
  · obtain ⟨outcome, run, proper⟩ :=
      exists_run_simulate_ne_misuse bar generator seed lines directory file choice
    exact ⟨outcome, run, proper .pinCount⟩

/-- Two digits are accepted for two pins, and a letter of two bytes is refused, although it is as
long as two digits. -/
theorem simulate_digits_of_conjunction :
    let text := "2\n1\n1 -1 -2 0\n"
    let directory := Directory.flat [("and.lcf", .text text)]
    let environment := Environment.inDirectory Display.bar Random.Xoshiro.generator
    let command (values : String) := Command.simulate "and.lcf" (.digits values) 1
    let pins := Circuit.ofOperations [.addInput, .addInput]
    (∃ assigned, pins.setInputs [true, false] = .ok assigned ∧
      assigned.inputValues = [true, false]) ∧
    simulateCircuit Random.Xoshiro.generator (.digits "é") 1 pins = .error (.valueDigit 'é') ∧
    (∃ outcome, ((command "10").run environment []).run directory = pure (outcome, directory) ∧
      outcome.result = .ok ()) ∧
    ∃ outcome, ((command "é").run environment []).run directory = pure (outcome, directory) ∧
      outcome.result = .error (.valueDigit 'é') := by
  intro text directory environment command pins
  have two : pins.inputCount = 2 := by decide +kernel
  have digits : IsDigits 2 "10" :=
    ⟨by decide +kernel, List.all_eq_true.mp (by decide +kernel)⟩
  have other : ¬ IsDigits 2 "é" := fun digits => absurd digits.1 (by decide +kernel)
  have letter : Refuses 2 "é" (.valueDigit 'é') :=
    .character (by decide +kernel) (by decide +kernel)
  have count : (directory.load "and.lcf").1.map Circuit.inputCount = .ok 2 := by decide +kernel
  cases loads : directory.load "and.lcf" with
  | mk answer log =>
    cases answer with
    | error error =>
      rw [loads] at count
      cases count
    | ok circuit =>
      rw [loads] at count
      have pair : circuit.inputCount = 2 := Except.ok.inj count
      obtain ⟨accepts, _, simulates, _⟩ := simulate_digits_spec Random.Xoshiro.generator "10" 1
      obtain ⟨_, refusesAll, stops, _⟩ := simulate_digits_spec Random.Xoshiro.generator "é" 1
      obtain ⟨assigned, assigns, holds, _⟩ := accepts pins (Circuit.reachable_ofOperations _)
        (by decide +kernel) (two ▸ digits)
      obtain ⟨failure, refuses, everywhere⟩ := refusesAll 2 other
      obtain ⟨accepted, runs, succeeds⟩ :=
        simulates (StateM Display) Display.bar directory "and.lcf" [] circuit log loads
      obtain ⟨refused, ends, fails⟩ :=
        stops (StateM Display) Display.bar directory "and.lcf" [] circuit log loads
      refine ⟨⟨assigned, assigns, holds⟩, ?_, ⟨accepted, runs, ?_⟩, refused, ends, ?_⟩
      · rw [everywhere pins two, refuses.unique letter]
      · exact succeeds.ok_iff.mpr (pair ▸ digits)
      · obtain ⟨failure, refuses, rfl⟩ := fails.refuses (pair ▸ other)
        rw [refuses.unique (pair ▸ letter)]
        rfl

end CommandLine

end Combinational
