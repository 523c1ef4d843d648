/-
This file proves what circuits are drawn at random, and that their files give them back.

Whatever numbers are drawn below their bounds, each gate reads input pins and later gates only. The
gates can therefore be sorted, every gate is connected, and nothing reads the first gate, which
drives the first output pin. A circuit drawn from a seed, within the limits on what can be loaded,
is found again in the file that was made for it, with the same devices in the same order.
-/

import Combinational.CommandLine.Execution
import Combinational.Proofs.Dialogues
import Combinational.Proofs.Growth
import Combinational.Proofs.RoundTrip

namespace Combinational

namespace Circuit

open Combinational.Random

/-! ### Random circuits -/

/-- The gate at a position references input pins and later gates, one if it is a Not gate and one to
three otherwise. -/
def ReadsLater (circuit : Circuit) (position : Nat) (gate : DeviceId) : Prop :=
  ∃ kind references, circuit.device gate = .ok (.gate kind references) ∧
    (kind = .not → references.length = 1) ∧
    (1 ≤ references.length ∧ references.length ≤ 3) ∧
    ∀ reference ∈ references, reference ∈ circuit.inputs ∨
      ∃ later, position < later ∧ circuit.gates[later]? = some reference

/-- What is known of random circuits with some input pins and gates. -/
structure IsRandom (inputs gates : Nat) (circuit : Circuit) : Prop where
  isSorted : circuit.isSorted = true
  isEvaluationOrder : circuit.IsEvaluationOrder circuit.order.toList
  check_eq_ok : circuit.check = .ok ()
  inputCount_eq : circuit.inputCount = inputs
  gateCount_eq : circuit.gateCount = gates
  /-- There are no devices besides the pins and gates that are listed. -/
  size_eq : circuit.devices.size = inputs + gates + circuit.outputCount
  /-- The input pins are false. -/
  pins : ∀ pin ∈ circuit.inputs, circuit.device pin = .ok (.inputPin false)
  readsLater : ∀ (position : Nat) (gate : DeviceId), circuit.gates[position]? = some gate →
    circuit.ReadsLater position gate
  /-- The output pins forward the sinks. -/
  outputs : circuit.outputs.toList.map circuit.device =
    circuit.sinks.toList.map fun sink => .ok (.outputPin [sink])
  /-- The sinks are the gates that no gate reads, in gate order. -/
  sinks : circuit.sinks.toList.Sublist circuit.gates.toList ∧
    ∀ gate, gate ∈ circuit.sinks ↔
      gate ∈ circuit.gates ∧ ∀ consumer, ¬ circuit.Reads consumer gate
  /-- The first output pin forwards the first gate. -/
  first : ∃ output gate, circuit.outputs[0]? = some output ∧ circuit.gates[0]? = some gate ∧
    circuit.device output = .ok (.outputPin [gate])

section Assembled

variable {inputs : Nat} {statements : List Statement} {circuit : Circuit}
  (room : inputs + statements.length + (Statement.unread statements).length < UInt32.size)
  (drawn : Statement.AreDrawn inputs statements)
  (assembles : assemble inputs statements = .ok circuit)

include room drawn assembles

/-- Each gate has the references that were drawn for it. -/
theorem readsLater_of_assemble {position : Nat} {gate : DeviceId}
    (listed : circuit.gates[position]? = some gate) : circuit.ReadsLater position gate := by
  have small : inputs + statements.length < UInt32.size :=
    Nat.lt_of_le_of_lt (Nat.le_add_right _ _) room
  have assembled := isAssembled_of_assemble small drawn.areDefined assembles
  have located : circuit.locate (.gate (position + 1)) = some gate := listed
  have numbered := isDefined_of_locate located
  rw [(counts_of_assemble assembles).1, (counts_of_assemble assembles).2] at numbered
  have inside : position < statements.length := (Source.isDefined_gate.mp numbered).2
  have given := List.getElem?_eq_getElem inside
  obtain ⟨single, few, isAfter⟩ := drawn position _ given
  obtain rfl := Option.some.inj ((assembled.locate_eq numbered).symm.trans located)
  have index : (Source.id inputs (.gate (position + 1))).index = inputs + position :=
    Source.index_id small.le numbered
  have found := device_eq_ok_iff.mpr ((congrArg (circuit.devices[·]?) index).trans
    (assembled.getElem?_gate given))
  refine ⟨_, _, found, ?_, ?_, fun reference referenced => ?_⟩
  · rwa [List.length_map]
  · rwa [List.length_map]
  · obtain ⟨source, sourceListed, rfl⟩ := List.mem_map.mp referenced
    have after := isAfter source sourceListed
    have there := assembled.locate_eq after.isDefined
    match source, after, there with
    | .input (pin + 1), _, there => exact Or.inl (Array.mem_of_getElem? there)
    | .gate (later + 1), after, there => exact Or.inr ⟨later, Nat.le_of_succ_le_succ after.1, there⟩

/-- No gate reads the first one, so it drives the first output pin. -/
theorem exists_first_output (nonempty : statements ≠ []) :
    ∃ output gate, circuit.outputs[0]? = some output ∧ circuit.gates[0]? = some gate ∧
      circuit.device output = .ok (.outputPin [gate]) := by
  have small : inputs + statements.length < UInt32.size :=
    Nat.lt_of_le_of_lt (Nat.le_add_right _ _) room
  have assembled := isAssembled_of_assemble small drawn.areDefined assembles
  obtain ⟨_, bounded⟩ := wellFormed_assemble small drawn.areDefined room assembles
  obtain ⟨others, unread⟩ := List.head?_eq_some_iff.mp (drawn.head?_unread nonempty)
  have forwarded := assembled.map_device_outputs bounded
  rw [unread, List.map_cons, List.map_eq_cons_iff] at forwarded
  obtain ⟨output, rest, listed, forwards, _⟩ := forwarded
  have first : circuit.outputs[0]? = some output := by
    rw [← Array.getElem?_toList, listed]
    rfl
  have gate := assembled.locate_gate ⟨Nat.le_refl 1, List.length_pos_iff.mpr nonempty⟩
  exact ⟨output, _, first, gate, forwards⟩

theorem isRandom_of_assemble (nonempty : statements ≠ []) :
    IsRandom inputs statements.length circuit := by
  have small : inputs + statements.length < UInt32.size :=
    Nat.lt_of_le_of_lt (Nat.le_add_right _ _) room
  have assembled := isAssembled_of_assemble small drawn.areDefined assembles
  obtain ⟨wellFormed, bounded⟩ := wellFormed_assemble small drawn.areDefined room assembles
  obtain ⟨inputCount, gateCount⟩ := counts_of_assemble assembles
  have sublist : circuit.sinks.toList.Sublist circuit.gates.toList := by
    rw [toList_sinks wellFormed bounded]
    exact List.filter_sublist
  exact {
    isSorted := assembled.isSorted
    isEvaluationOrder := assembled.isEvaluationOrder
    check_eq_ok := Lcf.check_of_isAssembled assembled wellFormed bounded drawn.sources_ne_nil
    inputCount_eq := inputCount
    gateCount_eq := gateCount
    size_eq := by rw [assembled.size_devices, inputCount, gateCount]
    pins := fun _ => assembled.device_of_mem_inputs wellFormed bounded
    readsLater := fun _ _ listed => readsLater_of_assemble room drawn assembles listed
    outputs := map_device_outputs_of_assemble small drawn.areDefined room assembles
    sinks := ⟨sublist, fun _ => mem_sinks_iff_not_reads wellFormed bounded⟩
    first := exists_first_output room drawn assembles nonempty }

/-- A circuit of drawn statements is loaded as it was, if its counts are in their bounds. -/
theorem load_write_of_assemble (someInputs : 1 ≤ inputs ∧ inputs ≤ maxInputs)
    (someGates : 1 ≤ statements.length ∧ statements.length ≤ maxGates) :
    (Lcf.load (Lcf.write circuit)).1 = .ok circuit := by
  have small : inputs + statements.length < UInt32.size :=
    Nat.lt_of_le_of_lt (Nat.le_add_right _ _) room
  have defined := drawn.areDefined
  obtain ⟨wellFormed, bounded⟩ := wellFormed_assemble small defined room assembles
  have described := describe_of_assemble small defined assembles
  refine (Lcf.load_write_eq_ok_iff wellFormed bounded).mpr ⟨?_, ?_, ?_⟩
  · rw [described]
    exact ⟨someInputs, someGates, rfl⟩
  · refine (Lcf.sources_ne_nil_iff wellFormed bounded).mp ?_
    rw [described]
    exact drawn.sources_ne_nil
  · rw [described, (counts_of_assemble assembles).1]
    exact assembles

end Assembled

end Circuit

/-! ### Files of random circuits -/

section Files

variable {m : Type → Type} [Monad m] [LawfulMonad m] {directory : Directory} {path name : String}

/-- A file that may be read holds what was written to it. -/
theorem Directory.load_written (located : directory.locate .reading path = .ok name)
    (text : String) : (directory.write name text).load path = Lcf.load text := by
  unfold load read
  simp only [locate_write, located, find?_write_self]

theorem Lcf.run_writeFile (located : directory.locate .creating path = .ok name)
    (circuit : Circuit) : (writeFile (Directory.filesOver m) path circuit).run.run directory =
      pure (.ok (), directory.write name (write circuit)) := by
  have created : directory.create path = (.ok name, directory.write name "") := by
    rw [Directory.create, located]
  have written : (directory.write name "").append name (write circuit) =
      directory.write name (write circuit) := by
    rw [Directory.append_write, String.empty_append]
  rw [writeFile, ExceptT.run_bind, StateT.run_bind, Directory.run_create, created, pure_bind]
  show StateT.run (ExceptT.run ((Directory.filesOver m).write name (write circuit) >>= _)) _ = _
  rw [ExceptT.run_bind, StateT.run_bind, Directory.run_write, written, pure_bind]
  rfl

theorem Lcf.run_writeFile_of_error {error : FileError}
    (refused : directory.locate .creating path = .error error) (circuit : Circuit) :
    (writeFile (Directory.filesOver m) path circuit).run.run directory =
      pure (.error error, directory) := by
  have fails : directory.create path = (.error error, directory) := by
    rw [Directory.create, refused]
  rw [writeFile, ExceptT.run_bind, StateT.run_bind, Directory.run_create, fails, pure_bind]
  rfl

namespace CommandLine

variable {generator : Random.Generator} {inputs gates : Nat} {seed : UInt64} {circuit : Circuit}
  (someInputs : 1 ≤ inputs ∧ inputs ≤ maxInputs) (someGates : 1 ≤ gates ∧ gates ≤ maxGates)
  (draws : Circuit.random generator inputs gates seed = .ok circuit) (bar : Bar m)
  (lines : List Line)

include someInputs someGates draws

/-- A circuit that could be drawn is written, and then summarized. -/
theorem generateCircuit_eq :
    generateCircuit (.inDirectory bar generator) inputs gates seed path = do
      ofSystem (Lcf.writeFile (Directory.filesOver m) path circuit)
      return circuit.summary ++ "\n" := by
  rw [generateCircuit, if_neg (by omega), if_neg (by omega), Environment.inDirectory, draws]
  exact pure_bind circuit _

/-- Generating a circuit makes a file hold its description, and nothing else changes. -/
theorem run_generate (located : directory.locate .creating path = .ok name) :
    ((Command.generate inputs gates seed path).run (.inDirectory bar generator) lines).run
        directory =
      pure (.ofText [] (.ok (circuit.summary ++ "\n")),
        directory.write name (Lcf.write circuit)) := by
  rw [Command.run, generateCircuit_eq someInputs someGates draws]
  simp only [ExceptT.run_bind, run_ofSystem, StateT.run_bind, StateT.run_map,
    Lcf.run_writeFile located]
  simp [Except.mapError]

/-- Nothing changes if the file cannot be created. -/
theorem run_generate_of_error {error : FileError}
    (refused : directory.locate .creating path = .error error) :
    ((Command.generate inputs gates seed path).run (.inDirectory bar generator) lines).run
        directory = pure (.ofText [] (.error (.file error)), directory) := by
  rw [Command.run, generateCircuit_eq someInputs someGates draws]
  simp only [ExceptT.run_bind, run_ofSystem, StateT.run_bind, StateT.run_map,
    Lcf.run_writeFile_of_error refused]
  simp [Except.mapError]

end CommandLine

end Files

namespace Circuit

open Combinational.Random

/-! ### Main statement -/

section Drawn

variable {State : Type} {below : Dice State} (bounded : below.IsBounded) {inputs gates : Nat}
  (pins : 0 < inputs) (some : 0 < gates) {state after : State} {statements : List Statement}
  (draws : drawStatements below inputs gates state = .some (statements, after))

include bounded pins some draws

theorem exists_assemble_of_drawStatements (small : inputs + gates < UInt32.size) :
    ∃ circuit, assemble inputs statements = .ok circuit ∧
      drawn below state inputs gates = .ok circuit := by
  obtain ⟨length, areDrawn⟩ := ensures_drawStatements bounded pins state statements after draws
  have nonempty : statements ≠ [] := List.ne_nil_of_length_pos (length ▸ some)
  have unread : Statement.unread statements ≠ [] := by
    intro none
    have first := areDrawn.head?_unread nonempty
    rw [none] at first
    cases first
  rw [← length] at small
  obtain ⟨circuit, assembles, _⟩ :=
    assemble_of_isAcyclic small areDrawn.areDefined unread areDrawn.isAcyclic
  refine ⟨circuit, assembles, ?_⟩
  rw [drawn, if_neg (by omega), draws]
  show ofFamily (assemble inputs statements) = .ok circuit
  rw [assembles]
  rfl

end Drawn

/-- Dice that give the numbers of a list, and stop at a number that is out of bounds. -/
def scripted : Dice (List Nat) := fun _ bound script =>
  match script with
  | [] => none
  | draw :: rest => if draw < bound then some (draw, rest) else none

theorem isBounded_scripted : scripted.IsBounded := by
  intro size bound _ script draw rest draws
  cases script with
  | nil => cases draws
  | cons first others =>
    by_cases small : first < bound
    · have given : some (first, others) = some (draw, rest) := (if_pos small).symm.trans draws
      obtain ⟨rfl, _⟩ := Prod.mk.inj (Option.some.inj given)
      exact small
    · have given : none = some (draw, rest) := (if_neg small).symm.trans draws
      cases given

end Circuit

end Combinational
