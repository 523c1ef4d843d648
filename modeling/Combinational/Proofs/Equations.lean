/-
This file reads the statements of gates as equations.

A rule computes something for each gate from what it computes for the sources of the gate. Where the
statements form no loop, their equations have a single solution, so what is computed for a gate
depends on the statements alone and not on the circuit that keeps the gates, or on its order.

The values of the gates are what one such rule computes, for given values of the input pins.
-/

import Combinational.Proofs.Evaluation
import Combinational.Proofs.Numbering

namespace Combinational

namespace Statement

/-- The statement of the gate with a number. -/
def numbered? (statements : List Statement) : Nat → Option Statement
  | 0 => none
  | position + 1 => statements[position]?

theorem isSome_numbered?_iff {statements : List Statement} {number : Nat} :
    (numbered? statements number).isSome ↔ 1 ≤ number ∧ number ≤ statements.length := by
  cases number with
  | zero => simp [numbered?]
  | succ position =>
    have inside : (statements[position]?).isSome ↔ position < statements.length := by simp
    rw [numbered?, inside]
    omega

theorem mem_iff_numbered? {statements : List Statement} {statement : Statement} :
    statement ∈ statements ↔ ∃ number, numbered? statements number = some statement := by
  rw [List.mem_iff_getElem?]
  constructor
  · rintro ⟨position, given⟩
    exact ⟨position + 1, given⟩
  · rintro ⟨_ | position, given⟩
    · cases given
    · exact ⟨position, given⟩

theorem reads_iff_numbered? {statements : List Statement} {consumer source : Nat} :
    Reads statements consumer source ↔
      ∃ statement, numbered? statements consumer = some statement ∧
        .gate source ∈ statement.sources := by
  constructor
  · rintro ⟨position, statement, given, rfl, listed⟩
    exact ⟨statement, given, listed⟩
  · rintro ⟨statement, given, listed⟩
    cases consumer with
    | zero => cases given
    | succ position => exact ⟨position, statement, given, rfl, listed⟩

end Statement

/-! ### Equations -/

/-- How something is computed for pins and gates. -/
structure Rule (Value : Type) where
  /-- What belongs to the input pin with a number. -/
  pin : Nat → Value
  /-- What belongs to a gate of some kind, from what belongs to its sources. -/
  gate : GateKind → List Value → Value

namespace Rule

variable {Value : Type} (rule : Rule Value)

/-- What belongs to a source, given what belongs to each gate. -/
def source (gates : Nat → Value) : Source → Value
  | .input number => rule.pin number
  | .gate number => gates number

/-- Whether the equations of all the statements hold. -/
def Solves (statements : List Statement) (gates : Nat → Value) : Prop :=
  ∀ (number : Nat) (statement : Statement), Statement.numbered? statements number = some statement →
    gates number = rule.gate statement.kind (statement.sources.map (rule.source gates))

variable {rule}

/-- Equations without loops have a single solution. Among the gates on which two solutions differ,
some gate would read none of the others. -/
theorem eq_of_solves {inputs : Nat} {statements : List Statement}
    (defined : Statement.AreDefined inputs statements)
    (acyclic : Statement.IsAcyclic statements) {first second : Nat → Value}
    (firstSolves : rule.Solves statements first) (secondSolves : rule.Solves statements second)
    {number : Nat} (numbered : 1 ≤ number ∧ number ≤ statements.length) :
    first number = second number := by
  classical
  let differing := (List.range' 1 statements.length).filter fun number =>
    first number ≠ second number
  have mem_differing {number : Nat} : number ∈ differing ↔
      (1 ≤ number ∧ number ≤ statements.length) ∧ first number ≠ second number := by
    simp only [differing, List.mem_filter, List.mem_range'_1, decide_eq_true_eq]
    exact and_congr_left fun _ => by omega
  by_contra differ
  have loopless : ∀ number, ¬ Relation.TransGen
      (fun source consumer => Statement.Reads statements consumer source) number number :=
    fun number loop => acyclic number (Relation.transGen_swap.mp loop)
  obtain ⟨least, member, unrelated⟩ := exists_unrelated loopless
    (List.ne_nil_of_mem (mem_differing.mpr ⟨numbered, differ⟩))
  obtain ⟨range, unequal⟩ := mem_differing.mp member
  obtain ⟨statement, given⟩ :=
    Option.isSome_iff_exists.mp (Statement.isSome_numbered?_iff.mpr range)
  refine unequal ?_
  rw [firstSolves least statement given, secondSolves least statement given]
  refine congrArg (rule.gate statement.kind) (List.map_congr_left fun source listed => ?_)
  have exists_source := defined statement (Statement.mem_iff_numbered?.mpr ⟨least, given⟩) source
    listed
  cases source with
  | input _ => rfl
  | gate number =>
    by_contra differ
    have inside := Source.isDefined_gate.mp exists_source
    exact unrelated number (mem_differing.mpr ⟨inside, differ⟩)
      (Statement.reads_iff_numbered?.mpr ⟨statement, given, listed⟩)

/-! ### Solutions in a circuit -/

/-- What belongs to each pin and gate of a circuit follows the rule. -/
structure Fits (rule : Rule Value) (circuit : Circuit) (valuation : DeviceId → Value) : Prop where
  pin : ∀ (position : Nat) (id : DeviceId), circuit.inputs[position]? = some id →
    valuation id = rule.pin (position + 1)
  gate : ∀ id ∈ circuit.gates, ∀ (kind : GateKind) (references : List DeviceId),
    circuit.devices[id.index]? = some (.gate kind references) →
      valuation id = rule.gate kind (references.map valuation)

theorem Fits.source {circuit : Circuit} {valuation : DeviceId → Value}
    (fits : rule.Fits circuit valuation) {source : Source} {id : DeviceId}
    (located : circuit.locate source = some id) :
    rule.source (valuation ∘ circuit.gateOf) source = valuation id := by
  match source, located with
  | .input (position + 1), located => exact (fits.pin position id located).symm
  | .gate number, located => exact congrArg valuation (Circuit.gateOf_of_locate located)

/-- A circuit solves the equations of its own description. -/
theorem Fits.solves {circuit : Circuit} (wellFormed : circuit.WellFormed)
    (small : circuit.devices.size ≤ UInt32.size) {valuation : DeviceId → Value}
    (fits : rule.Fits circuit valuation) :
    rule.Solves (Lcf.describe circuit).statements (valuation ∘ circuit.gateOf) := by
  intro number statement given
  cases number with
  | zero => cases given
  | succ position =>
    obtain ⟨gate, references, listed, found, named⟩ :=
      (Lcf.getElem?_statements_eq_some_iff wellFormed small).mp given
    have here : circuit.locate (.gate (position + 1)) = some gate := listed
    rw [Function.comp_apply, Circuit.gateOf_of_locate here,
      fits.gate gate (Array.mem_of_getElem? listed) statement.kind references found]
    have entries : (references.map valuation).map some =
        (statement.sources.map (rule.source (valuation ∘ circuit.gateOf))).map some := by
      have sources := congrArg (List.map (Option.map (rule.source (valuation ∘ circuit.gateOf))))
        named
      rw [List.map_map, List.map_map] at sources
      rw [List.map_map, List.map_map]
      refine Eq.trans (List.map_congr_left fun reference member => ?_) sources
      have inside : reference ∈ circuit.references gate := by
        rwa [Circuit.references_of_getElem? found]
      obtain ⟨source, names⟩ := Option.isSome_iff_exists.mp
        (Lcf.isSome_source?_of_reference wellFormed small inside)
      have located := (Lcf.source?_eq_some_iff wellFormed small).mp names
      rw [Function.comp_apply, Function.comp_apply, names, Option.map_some, fits.source located]
    exact congrArg (rule.gate statement.kind)
      (List.map_injective_iff.mpr (Option.some_injective Value) entries)

/-- What belongs to a device, from what belongs to its references. -/
def compute (rule : Rule Value) (circuit : Circuit) (id : DeviceId)
    (valuation : DeviceId → Value) : Value :=
  match circuit.devices[id.index]? with
  | some (.gate kind references) => rule.gate kind (references.map valuation)
  | _ => rule.pin ((circuit.inputNumber? id).getD 0)

/-- Some valuation fits a circuit with an evaluation order, whatever the rule. -/
theorem exists_fits (rule : Rule Value) {circuit : Circuit} (wellFormed : circuit.WellFormed)
    (small : circuit.devices.size ≤ UInt32.size)
    (ordered : circuit.IsEvaluationOrder circuit.order.toList) :
    ∃ valuation, rule.Fits circuit valuation := by
  have reading : ∀ (id : DeviceId) (first second : DeviceId → Value),
      (∀ reference ∈ circuit.references id, first reference = second reference) →
        rule.compute circuit id first = rule.compute circuit id second := by
    intro id first second agree
    unfold compute
    split
    · next kind references found =>
      rw [Circuit.references_of_getElem? found] at agree
      exact congrArg (rule.gate kind) (List.map_congr_left agree)
    · rfl
  have follows := Circuit.follows_schedule wellFormed small ordered
  rw [Circuit.schedule, Circuit.follows_append, Circuit.follows_append, List.nil_append] at follows
  obtain ⟨valuation, pins, gates⟩ := Circuit.exists_computed reading follows.1.2
    fun id => rule.pin ((circuit.inputNumber? id).getD 0)
  refine ⟨valuation, fun position id listed => ?_, fun id member kind references found => ?_⟩
  · have numbered := (wellFormed.inputNumber?_eq_some_iff small).mpr ⟨position, listed, rfl⟩
    rw [pins id (Array.mem_toList_iff.mpr (Array.mem_of_getElem? listed)), numbered,
      Option.getD_some]
  · rw [gates id ((ordered.mem_iff id).mpr member), compute, found]

/-! ### The values of the gates -/

/-- The values for some values of the input pins. A Not gate without a source counts as reading a
false one. -/
def logic (values : List Bool) : Rule Bool where
  pin number := values.getD (number - 1) false
  gate
    | .and, sources => sources.all id
    | .or, sources => sources.any id
    | .not, sources => !sources.head?.any id

theorem output_gate (values : List Bool) (kind : GateKind) (references : List DeviceId)
    (valuation : DeviceId → Bool) : (Device.gate kind references).output valuation =
      (logic values).gate kind (references.map valuation) := by
  cases kind with
  | and =>
    show references.all valuation = (references.map valuation).all id
    rw [List.all_map]
    rfl
  | or =>
    show references.any valuation = (references.map valuation).any id
    rw [List.any_map]
    rfl
  | not =>
    cases references with
    | nil => rfl
    | cons first others => rfl

theorem fits_logic {circuit : Circuit} (wellFormed : circuit.WellFormed)
    (small : circuit.devices.size ≤ UInt32.size) {values : List Bool}
    {value valuation : DeviceId → Bool}
    (given : ∀ (position : Nat) (id : DeviceId), circuit.inputs[position]? = some id →
      values[position]? = some (value id))
    (settles : ∀ id, circuit.IsListed id → (circuit.withPins value).SettlesConnected valuation id) :
    (logic values).Fits circuit valuation where
  pin position id listed := by
    have member := Array.mem_of_getElem? listed
    obtain ⟨_, found⟩ := (wellFormed.mem_inputs small).mp member
    obtain ⟨device, deviceFound, _, settled⟩ := settles id (Or.inl member)
    rw [Circuit.getElem?_withPins_of_input found] at deviceFound
    obtain rfl := Option.some.inj deviceFound
    show valuation id = values.getD position false
    rw [settled, List.getD_eq_getElem?_getD, given position id listed]
    rfl
  gate id member kind references found := by
    obtain ⟨device, deviceFound, _, settled⟩ := settles id (Or.inr (Or.inl member))
    rw [Circuit.getElem?_withPins_of_not_input found rfl] at deviceFound
    obtain rfl := Option.some.inj deviceFound
    rw [settled, output_gate values]

end Rule

/-- The values of the gates of a sorted circuit, for some values of its pins, solve the equations of
its description. -/
theorem Circuit.exists_solves_logic {circuit : Circuit} (reachable : circuit.Reachable)
    (small : circuit.devices.size < UInt32.size) (sorted : circuit.isSorted = true)
    (nots : circuit.HasConnectedNots) {values : List Bool}
    (length : values.length = circuit.inputCount) :
    ∃ assigned gates, circuit.setInputs values = .ok assigned ∧
      (Rule.logic values).Solves (Lcf.describe circuit).statements gates ∧
      ∀ number gate, circuit.locate (.gate number) = some gate →
        assigned.deviceOutput gate = .ok (gates number) := by
  have wellFormed := reachable.wellFormed small
  obtain ⟨value, valuation, assigns, given, assigned, ordered, settles⟩ :=
    exists_valuation reachable small sorted nots length
  refine ⟨_, _, assigns, (Rule.fits_logic wellFormed small.le given settles).solves wellFormed
    small.le, fun number gate located => ?_⟩
  have member : gate ∈ circuit.gates := by
    cases number with
    | zero => cases located
    | succ position => exact Array.mem_of_getElem? located
  rw [Function.comp_apply, gateOf_of_locate located]
  exact deviceOutput_eq_ok assigned (by rw [size_withPins]; exact small.le) ordered sorted settles
    (Or.inr (Or.inl member))

end Combinational
