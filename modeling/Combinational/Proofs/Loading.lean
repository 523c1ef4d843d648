/-
This file loads circuits step by step, and proves that no step is misused.

The description is read in two passes. Then all the devices are placed, each source of each gate is
looked up and connected, the gates that no gate reads are found, the gates are sorted, an output pin
is added for each of them, and the circuit is checked. Each step uses the operations on circuits,
which refuse whatever they are not meant for, and lists are read at positions that they need not
have. None of this is ever refused: the outcome is the one of building the circuit at once.
-/

import Combinational.Proofs.Passes
import Combinational.Proofs.Verdict

namespace Combinational.Lcf

/-! ### The steps -/

/-- An outcome that is known to be one of loading. -/
def report {Item : Type} (outcome : Except LoadError Item) : Attempt Item :=
  ExceptT.mk (.ok outcome)

/-- Looks up the device that a source of a gate names. -/
def lookUp (description : Description) (number : Nat) (circuit : Circuit) :
    Source → Attempt DeviceId
  | .input pin =>
    if pin = 0 ∨ description.inputs < pin then
      throw (.inputReference number pin)
    else
      ExceptT.lift (circuit.input (pin - 1))
  | .gate producer =>
    if producer = 0 ∨ description.gates < producer then
      throw (.gateReference number producer)
    else
      ExceptT.lift (circuit.gate (producer - 1))

/-- Connects a gate to a source. -/
def connectSource (description : Description) (number : Nat) (gate : DeviceId)
    (circuit : Circuit) (source : Source) : Attempt Circuit := do
  let reference ← lookUp description number circuit source
  ExceptT.lift (circuit.connect gate reference)

/-- Connects the gates of some statements, the first of which stands at a position. -/
def connectStatements (description : Description) :
    (position : Nat) → List Statement → Circuit → Attempt Circuit
  | _, [], circuit => pure circuit
  | position, statement :: others, circuit => do
    let gate ← ExceptT.lift (circuit.gate position)
    let connected ← statement.sources.foldlM (connectSource description (position + 1) gate) circuit
    connectStatements description (position + 1) others connected

/-- Adds an output pin that forwards a gate. -/
def addSink (circuit : Circuit) (gate : DeviceId) : Attempt Circuit := do
  let _ ← ExceptT.lift (circuit.addOutput gate).1
  return (circuit.addOutput gate).2

/-- The input pins and unconnected gates of a description. -/
def place (description : Description) : Circuit :=
  description.statements.foldl (fun circuit statement => (circuit.addGate statement.kind).2)
    (Circuit.empty.addInputs description.inputs)

/-- Adds the output pins of a circuit whose gates are connected. -/
def finish (wired : Circuit) : Attempt Circuit :=
  if wired.sinks.isEmpty then
    throw .noOutput
  else do
    let sorted ← report wired.sort
    let exposed ← wired.sinks.toList.foldlM addSink sorted
    ExceptT.lift exposed.check
    return exposed

/-- Builds the circuit of a description with accepted counts. -/
def construct (description : Description) : Attempt Circuit := do
  let wired ← connectStatements description 0 description.statements (place description)
  finish wired

/-- Reads the gate lines and builds the circuit, once the number of input pins is accepted. -/
def loadGates (lines : List (List Char)) (inputs : Nat) : Attempt Circuit := do
  let gates := parseIndex (← entry lines 1)
  if gates = 0 ∨ maxGates < gates then
    throw (.gateCount gates)
  else
    let gateLines ← slice lines 2 lines.length
    if gateLines.length ≠ gates then
      throw (.gateLines gates gateLines.length)
    else
      let statements ← gateLines.mapM parseStatement
      construct { inputs, gates, statements }

/-- Loads the circuit that a text describes. -/
def loadStepwise (text : String) : Attempt Circuit :=
  if isDescription text.toList then do
    let inputs := parseIndex (← entry (lines text.toList) 0)
    if inputs = 0 ∨ maxInputs < inputs then
      throw (.inputCount inputs)
    else
      loadGates (lines text.toList) inputs
  else
    throw .malformed

theorem lift_ok_bind {First Second : Type} (value : First) (next : First → Attempt Second) :
    ExceptT.lift (.ok value) >>= next = next value := rfl

/-! ### Connecting -/

open Circuit

section Connect

variable {description : Description}

theorem isDefined_input_iff {inputs gates pin : Nat} :
    (Source.input pin).isDefined inputs gates = true ↔ ¬ (pin = 0 ∨ inputs < pin) := by
  simp only [Source.isDefined, Bool.and_eq_true, decide_eq_true_eq]
  omega

theorem isDefined_gate_iff {inputs gates number : Nat} :
    (Source.gate number).isDefined inputs gates = true ↔ ¬ (number = 0 ∨ gates < number) := by
  simp only [Source.isDefined, Bool.and_eq_true, decide_eq_true_eq]
  omega

theorem lookUp_arrangement {gates : List (GateKind × List DeviceId)}
    (counted : description.gates = gates.length) (number : Nat) (source : Source) :
    lookUp description number (arrangement description.inputs gates) source =
      if source.isDefined description.inputs description.gates then
        pure (source.id description.inputs)
      else throw (missingSource number source) := by
  cases source with
  | input pin =>
    rw [lookUp]
    by_cases missing : pin = 0 ∨ description.inputs < pin
    · rw [if_pos missing, if_neg (by rw [isDefined_input_iff]; exact not_not_intro missing)]
      rfl
    · rw [if_neg missing, if_pos (isDefined_input_iff.mpr missing)]
      rw [input_arrangement (by omega)]
      rfl
  | gate producer =>
    rw [lookUp]
    by_cases missing : producer = 0 ∨ description.gates < producer
    · rw [if_pos missing, if_neg (by rw [isDefined_gate_iff]; exact not_not_intro missing)]
      rfl
    · rw [if_neg missing, if_pos (isDefined_gate_iff.mpr missing)]
      have place : description.inputs + (producer - 1) = description.inputs + producer - 1 := by
        omega
      rw [gate_arrangement _ (by omega), place]
      rfl

variable (small : description.inputs + description.gates < UInt32.size)

include small

theorem connectSource_arrangement {before after : List (GateKind × List DeviceId)}
    {kind : GateKind} {references : List DeviceId}
    (counted : description.gates = (before ++ (kind, references) :: after).length)
    (number : Nat) (source : Source) :
    connectSource description number (.ofIndex (description.inputs + before.length))
      (arrangement description.inputs (before ++ (kind, references) :: after)) source =
    if source.isDefined description.inputs description.gates then
      pure (arrangement description.inputs
        (before ++ (kind, references ++ [source.id description.inputs]) :: after))
    else throw (missingSource number source) := by
  rw [connectSource, lookUp_arrangement counted]
  by_cases defined : source.isDefined description.inputs description.gates = true
  · rw [if_pos defined, if_pos defined, pure_bind]
    have inside := Source.position_lt defined
    rw [← Source.index_id small.le defined, counted] at inside
    have room : description.inputs + before.length < UInt32.size := by
      rw [List.length_append, List.length_cons] at counted
      omega
    rw [connect_arrangement room inside]
    rfl
  · rw [if_neg defined, if_neg defined]
    rfl

/-- The sources of a gate are connected from left to right, up to the first that is missing. -/
theorem foldlM_connectSource {before after : List (GateKind × List DeviceId)} {kind : GateKind}
    {references : List DeviceId} (number : Nat) (sources : List Source)
    (counted : description.gates = before.length + 1 + after.length) :
    sources.foldlM
      (connectSource description number (.ofIndex (description.inputs + before.length)))
      (arrangement description.inputs (before ++ (kind, references) :: after)) =
    match sources.find? fun source =>
        !source.isDefined description.inputs description.gates with
    | some source => throw (missingSource number source)
    | none => pure (arrangement description.inputs
        (before ++ (kind, references ++ sources.map (Source.id description.inputs)) :: after)) := by
  induction sources generalizing references with
  | nil =>
    rw [List.map_nil, List.append_nil]
    rfl
  | cons source others inductionHypothesis =>
    have length : description.gates = (before ++ (kind, references) :: after).length := by
      rw [List.length_append, List.length_cons]
      omega
    rw [List.foldlM_cons, connectSource_arrangement small length]
    by_cases defined : source.isDefined description.inputs description.gates = true
    · rw [if_pos defined, pure_bind, inductionHypothesis,
        List.find?_cons_of_neg (by rw [defined]; decide), List.map_cons, List.append_assoc]
      rfl
    · rw [if_neg defined]
      rw [Bool.not_eq_true] at defined
      rw [List.find?_cons_of_pos (by rw [defined]; rfl)]
      rfl

/-- The gate that a statement defines, not connected yet. -/
def bare (statement : Statement) : GateKind × List DeviceId :=
  (statement.kind, [])

/-- A statement whose gate stands after others is found, and its sources are checked while they are
connected. -/
theorem connectSources_arrangement (statement : Statement) (others : List Statement)
    (before : List (GateKind × List DeviceId))
    (counted : description.gates = before.length + (statement :: others).length) :
    (arrangement description.inputs (before ++ (statement :: others).map bare)).gate
      before.length = .ok (.ofIndex (description.inputs + before.length)) ∧
    statement.sources.foldlM (connectSource description (before.length + 1)
        (.ofIndex (description.inputs + before.length)))
        (arrangement description.inputs (before ++ (statement :: others).map bare)) =
      report ((checkSources description (before.length + 1) statement).map fun _ =>
        arrangement description.inputs
          (before ++ [wire description.inputs statement] ++ others.map bare)) := by
  rw [List.length_cons] at counted
  have later : description.gates = before.length + 1 + (others.map bare).length := by
    rw [List.length_map]
    omega
  have connects : statement.sources.foldlM (connectSource description (before.length + 1)
      (.ofIndex (description.inputs + before.length)))
      (arrangement description.inputs (before ++ bare statement :: others.map bare)) = _ :=
    foldlM_connectSource small (before.length + 1) statement.sources later
  refine ⟨gate_arrangement _ (by simp), ?_⟩
  rw [List.map_cons, connects, List.append_assoc, checkSources]
  cases statement.sources.find? fun source =>
      !source.isDefined description.inputs description.gates with
  | some source => rfl
  | none => rfl

/-- The gates are connected from first to last, up to the first with a missing source. -/
theorem connectStatements_arrangement (statements : List Statement)
    (before : List (GateKind × List DeviceId))
    (counted : description.gates = before.length + statements.length) :
    connectStatements description before.length statements
      (arrangement description.inputs (before ++ statements.map bare)) =
    report ((checkStatements description (before.length + 1) statements).1.map fun _ =>
      arrangement description.inputs (before ++ statements.map (wire description.inputs))) := by
  induction statements generalizing before with
  | nil => rfl
  | cons statement others inductionHypothesis =>
    obtain ⟨listed, connects⟩ := connectSources_arrangement small statement others before counted
    unfold connectStatements checkStatements
    rw [listed, lift_ok_bind, connects]
    cases checkSources description (before.length + 1) statement with
    | error error => rfl
    | ok _ =>
      rw [List.length_cons] at counted
      have wired := inductionHypothesis (before ++ [wire description.inputs statement]) (by
        rw [List.length_append, List.length_singleton]
        omega)
      rw [List.length_append, List.length_singleton] at wired
      show connectStatements description (before.length + 1) others _ = _
      rw [wired, List.append_assoc]
      rfl

end Connect

/-! ### Placing and finishing -/

theorem place_eq (description : Description) :
    place description =
      arrangement description.inputs (description.statements.map bare) := by
  have further : ∀ (statements : List Statement) (gates : List (GateKind × List DeviceId)),
      statements.foldl (fun circuit statement => (circuit.addGate statement.kind).2)
        (arrangement description.inputs gates) =
      arrangement description.inputs (gates ++ statements.map bare) := by
    intro statements
    induction statements with
    | nil => intro gates; rw [List.map_nil, List.append_nil]; rfl
    | cons statement others inductionHypothesis =>
      intro gates
      rw [List.foldl_cons, addGate, placeGate_arrangement, inductionHypothesis, List.append_assoc]
      rfl
  rw [place, empty_addInputs, further, List.nil_append]

theorem foldlM_addSink {circuit : Circuit} {sinks : List DeviceId}
    (small : circuit.devices.size + sinks.length ≤ UInt32.size)
    (drives : ∀ sink ∈ sinks, MayDrive circuit.devices sink) :
    sinks.foldlM addSink circuit = pure (circuit.expose sinks.toArray) := by
  refine foldlM_addOutput (fun current sink id extended added => ?_) small drives
  rw [addSink, added]
  rfl

theorem forM_eq_ok {Item : Type} {items : List Item} {check : Item → Except Misuse Unit}
    (accepted : ∀ item ∈ items, check item = .ok ()) : items.forM check = .ok () := by
  induction items with
  | nil => rfl
  | cons item others inductionHypothesis =>
    show (check item >>= fun _ => others.forM check) = .ok ()
    rw [accepted item List.mem_cons_self]
    exact inductionHypothesis fun other listed => accepted other (List.mem_cons_of_mem _ listed)

theorem checkGate_eq_ok {circuit : Circuit} {id : DeviceId} {kind : GateKind}
    {references : List DeviceId} (found : circuit.devices[id.index]? = some (.gate kind references))
    (connected : references ≠ [])
    (inside : ∀ reference ∈ references, reference.index < circuit.devices.size) :
    circuit.checkGate id = .ok () := by
  have none :
      references.find? (fun reference => circuit.devices.size ≤ reference.index) = none := by
    rw [List.find?_eq_none]
    intro reference listed
    rw [decide_eq_true_eq, Nat.not_le]
    exact inside reference listed
  have filled : references.isEmpty = false := by
    rw [List.isEmpty_eq_false_iff]
    exact connected
  unfold checkGate
  rw [device_eq_ok_iff.mpr found]
  simp only [bind, Except.bind, Device.isGate_gate, Device.references, filled, none]
  rfl

theorem checkOutput_eq_ok {circuit : Circuit} {id source : DeviceId}
    (found : circuit.devices[id.index]? = some (.outputPin [source])) :
    circuit.checkOutput id = .ok () := by
  unfold checkOutput
  rw [device_eq_ok_iff.mpr found]
  rfl

/-- A well-formed circuit passes the check, if its gates are connected and no output pin has more
than one reference. -/
theorem check_eq_ok {circuit : Circuit} (wellFormed : circuit.WellFormed)
    (small : circuit.devices.size ≤ UInt32.size)
    (connected : ∀ gate ∈ circuit.gates, circuit.references gate ≠ [])
    (driven : ∀ output ∈ circuit.outputs, (circuit.references output).length = 1) :
    circuit.check = .ok () := by
  have gates : circuit.gates.toList.forM circuit.checkGate = .ok () := by
    refine forM_eq_ok fun gate listed => ?_
    have member := Array.mem_toList_iff.mp listed
    obtain ⟨kind, references, found⟩ := (wellFormed.mem_gates small).mp member
    have nonempty := connected gate member
    rw [references_of_getElem? found] at nonempty
    refine checkGate_eq_ok found nonempty fun reference referenced => ?_
    obtain ⟨device, there, _⟩ := wellFormed.drives _ _ found reference referenced
    exact (Array.getElem?_eq_some_iff.mp there).1
  have outputs : circuit.outputs.toList.forM circuit.checkOutput = .ok () := by
    refine forM_eq_ok fun output listed => ?_
    have member := Array.mem_toList_iff.mp listed
    obtain ⟨first, others, found⟩ := wellFormed.of_mem_outputs small member
    have single := driven output member
    rw [references_of_getElem? found] at single
    obtain rfl := List.eq_nil_of_length_eq_zero (Nat.succ.inj single)
    exact checkOutput_eq_ok found
  unfold check
  rw [gates]
  exact outputs

/-- An assembled circuit passes the check, if every gate has a source. -/
theorem check_of_isAssembled {inputs : Nat} {statements : List Statement} {circuit : Circuit}
    (assembled : IsAssembled inputs statements circuit) (wellFormed : circuit.WellFormed)
    (small : circuit.devices.size ≤ UInt32.size)
    (connected : ∀ statement ∈ statements, statement.sources ≠ []) :
    circuit.check = .ok () := by
  have listed : ∀ {position : Nat} {device : Device}, circuit.devices[position]? = some device →
      device = .inputPin false ∨
      (∃ statement ∈ statements,
        .gate statement.kind (statement.sources.map (Source.id inputs)) = device) ∨
      ∃ number ∈ Statement.unread statements,
        .outputPin [Source.id inputs (.gate number)] = device := by
    intro position device found
    have member := List.mem_of_getElem? (Array.getElem?_toList.trans found)
    rw [assembled.devices_eq, List.mem_append, List.mem_append, List.mem_map, List.mem_map,
      or_assoc] at member
    exact member.imp_left List.eq_of_mem_replicate
  refine check_eq_ok wellFormed small (fun gate member => ?_) fun output member => ?_
  · obtain ⟨kind, references, found⟩ := (wellFormed.mem_gates small).mp member
    rw [references_of_getElem? found]
    rcases listed found with pin | ⟨statement, statementMember, same⟩ | ⟨_, _, same⟩
    · cases pin
    · obtain ⟨_, rfl⟩ := Device.gate.inj same
      exact mt List.map_eq_nil_iff.mp (connected statement statementMember)
    · cases same
  · obtain ⟨first, others, found⟩ := wellFormed.of_mem_outputs small member
    rw [references_of_getElem? found]
    rcases listed found with pin | ⟨_, _, same⟩ | ⟨_, _, same⟩
    · cases pin
    · cases same
    · obtain ⟨_, rfl⟩ := List.cons.inj (Device.outputPin.inj same)
      rfl

/-! ### The whole run -/

theorem finish_wired {inputs : Nat} {statements : List Statement}
    (room : inputs + statements.length + statements.length < UInt32.size)
    (defined : Statement.AreDefined inputs statements)
    (connected : ∀ statement ∈ statements, statement.sources ≠ []) :
    finish (wired inputs statements) = report (assemble inputs statements) := by
  have small : inputs + statements.length < UInt32.size := by omega
  by_cases none : Statement.unread statements = []
  · rw [assemble_of_unread_eq_nil small defined none, finish,
      if_pos ((isEmpty_sinks_wired small defined).mpr none)]
    rfl
  · have assembles := assemble_of_unread_ne_nil small defined none
    rw [finish, if_neg (mt (isEmpty_sinks_wired small defined).mp none), assembles]
    cases sorts : (wired inputs statements).sort with
    | error error => rfl
    | ok sorted =>
      rw [sorts] at assembles
      have ready := sinks_of_sort small defined (outputs_fit room) sorts
      have added := foldlM_addSink ready.1.le ready.2
      obtain ⟨wellFormed, bounded⟩ :=
        wellFormed_assemble small defined (outputs_fit room) assembles
      have accepted := check_of_isAssembled (isAssembled_expose small defined sorts) wellFormed
        bounded connected
      show (wired inputs statements).sinks.toList.foldlM addSink sorted >>= _ = _
      rw [added, pure_bind, accepted, lift_ok_bind]
      rfl

theorem construct_eq {description : Description} (counted : description.IsCounted)
    (connected : ∀ statement ∈ description.statements, statement.sources ≠ []) :
    construct description = report (buildCounted description).1 := by
  have room := counted.small
  have small : description.inputs + description.gates < UInt32.size := by
    rw [← counted.statements]
    omega
  have connects : connectStatements description 0 description.statements (place description) =
      report ((checkStatements description 1 description.statements).1.map fun _ =>
        wired description.inputs description.statements) := by
    rw [place_eq, wired_eq]
    exact connectStatements_arrangement small description.statements []
      (by rw [counted.statements]; exact (Nat.zero_add _).symm)
  rw [construct, connects]
  cases checks : (checkStatements description 1 description.statements).1 with
  | error error =>
    rw [buildCounted_of_refused checks]
    rfl
  | ok _ =>
    have declared := checkStatements_eq_ok_iff.mp checks
    rw [buildCounted_of_declared declared,
      ← finish_wired room (counted.areDefined_iff.mpr declared) connected]
    rfl

theorem isDescription_text (document : Document) :
    isDescription document.text.toList = true := by
  rw [Document.text, String.toList_ofList]
  exact isDescription_iff.mpr ⟨document, rfl⟩

theorem lines_document_text (document : Document) :
    Lcf.lines document.text.toList = document.lines := by
  rw [Document.text, String.toList_ofList, document.lines_characters]

/-- What cannot be read is refused by the first pass. -/
theorem isDescription_of_read?_eq_none {text : String} (unread : read? text = none) :
    isDescription text.toList = false := by
  rw [← Bool.not_eq_true, isDescription_iff]
  rintro ⟨document, written⟩
  have same : document.text = text := by
    rw [Document.text, written, String.ofList_toList]
  rw [← same, read?_text] at unread
  cases unread

theorem slice_gateLines (document : Document) :
    slice document.lines 2 document.lines.length =
      pure ((document.first :: document.others).map GateLine.characters) := by
  rw [slice, if_pos ⟨by simp [Document.lines], Nat.le_refl _⟩, List.take_length]
  rfl

theorem mapM_parseStatement (document : Document) :
    ((document.first :: document.others).map GateLine.characters).mapM parseStatement =
      pure document.description.statements :=
  mapM_eq_pure parseStatement_characters _

theorem loadGates_lines (document : Document)
    (inputs : ¬ (document.description.inputs = 0 ∨ maxInputs < document.description.inputs)) :
    loadGates document.lines document.description.inputs =
      report (build document.description).1 := by
  have gates : entry document.lines 1 = pure document.gates.digits := rfl
  have length : ((document.first :: document.others).map GateLine.characters).length =
      document.description.statements.length := by
    rw [Document.description, List.length_map, List.length_map]
  have number : parseIndex document.gates.digits = document.description.gates :=
    parseIndex_digits document.gates
  rw [loadGates, gates, pure_bind, number]
  by_cases refused : document.description.gates = 0 ∨ maxGates < document.description.gates
  · have counts : checkCounts document.description =
        .error (.gateCount document.description.gates) := by
      rw [checkCounts, if_neg inputs, if_pos refused]
    rw [if_pos refused, build, counts]
    rfl
  · rw [if_neg refused, slice_gateLines, pure_bind, length]
    by_cases differ : document.description.statements.length ≠ document.description.gates
    · have counts : checkCounts document.description = .error
          (.gateLines document.description.gates document.description.statements.length) := by
        rw [checkCounts, if_neg inputs, if_neg refused, if_pos differ]
      rw [if_pos differ, build, counts]
      rfl
    · have counts : checkCounts document.description = .ok () := by
        rw [checkCounts, if_neg inputs, if_neg refused, if_neg differ]
      have counted := checkCounts_eq_ok_iff.mp counts
      rw [if_neg differ, mapM_parseStatement, pure_bind, build_eq_of_isCounted counted]
      exact construct_eq counted document.sources_ne_nil

theorem loadStepwise_text (document : Document) :
    loadStepwise document.text = report (build document.description).1 := by
  have inputs : entry document.lines 0 = pure document.inputs.digits := rfl
  have number : parseIndex document.inputs.digits = document.description.inputs :=
    parseIndex_digits document.inputs
  rw [loadStepwise, if_pos (isDescription_text document), lines_document_text, inputs, pure_bind,
    number]
  by_cases refused : document.description.inputs = 0 ∨ maxInputs < document.description.inputs
  · have counts : checkCounts document.description =
        .error (.inputCount document.description.inputs) := by
      rw [checkCounts, if_pos refused]
    rw [if_pos refused, build, counts]
    rfl
  · rw [if_neg refused]
    exact loadGates_lines document refused

/-- The run of the steps ends with the outcome of loading, and no step is misused. -/
theorem loadStepwise_eq (text : String) : loadStepwise text = report (load text).1 := by
  cases read : read? text with
  | none =>
    rw [loadStepwise, isDescription_of_read?_eq_none read, load, read]
    rfl
  | some description =>
    obtain ⟨document, rfl, rfl⟩ := read?_eq_some_iff.mp read
    rw [loadStepwise_text, load, read]

/-! ### Loading a text -/

end Combinational.Lcf
