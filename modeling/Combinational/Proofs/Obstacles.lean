/-
This file tells which circuits can be evaluated.

Evaluation visits every listed device, whatever the values are, so a Not gate without a reference is
met even if no And or Or gate would ask for it. The devices before the first such gate are connected
and come after their references, so nothing else can fail before. Whether evaluation fails is
therefore a matter of the gates alone.

The values of the input pins make no difference. So an enumeration of the assignments that fails at
any of them fails at the first one.
-/

import Combinational.Proofs.OutputFunctions

namespace Combinational

namespace Pattern

theorem bigEndian_zero (width : Nat) : bigEndian width 0 = List.replicate width false := by
  simp only [bigEndian, Nat.zero_testBit, List.map_const', List.length_range]

theorem littleEndian_zero (width : Nat) : littleEndian width 0 = List.replicate width false := by
  rw [← reverse_bigEndian, bigEndian_zero, List.reverse_replicate]

end Pattern

namespace Circuit

/-! ### What keeps a circuit from being evaluated -/

/-- What keeps the circuit from being evaluated: gates that are not sorted, or else a Not gate
without a reference. -/
def obstacle? (circuit : Circuit) : Option Misuse :=
  if circuit.isSorted = false then some .unsorted
  else if circuit.HasConnectedNots then none
  else some .noReference

theorem obstacle?_eq_none_iff {circuit : Circuit} :
    circuit.obstacle? = none ↔ circuit.isSorted = true ∧ circuit.HasConnectedNots := by
  unfold obstacle?
  cases circuit.isSorted <;> simp

theorem isSome_obstacle?_iff {circuit : Circuit} :
    circuit.obstacle?.isSome ↔ circuit.isSorted = false ∨
      ∃ gate ∈ circuit.gates, circuit.device gate = .ok (.gate .not []) := by
  rw [Option.isSome_iff_ne_none, ne_eq, obstacle?_eq_none_iff, not_and_or, Bool.not_eq_true,
    HasConnectedNots]
  push Not
  rfl

/-- The values of the input pins are no obstacle. -/
theorem obstacle?_withPins {circuit : Circuit} (reachable : circuit.Reachable)
    (small : circuit.devices.size < UInt32.size) (held : DeviceId → Bool) :
    (circuit.withPins held).obstacle? = circuit.obstacle? := by
  have wellFormed := reachable.wellFormed small
  have assignedWellFormed := wellFormed_withPins reachable small held
  have room := (size_withPins circuit held).trans_le small.le
  have nots : (circuit.withPins held).HasConnectedNots ↔ circuit.HasConnectedNots := by
    refine ⟨fun nots => ?_, fun nots => hasConnectedNots_withPins wellFormed small.le nots held⟩
    have back := hasConnectedNots_withPins assignedWellFormed room nots circuit.heldValue
    rwa [withPins_withPins, withPins_heldValue small.le] at back
  unfold obstacle?
  rw [if_congr nots rfl rfl]
  rfl

/-! ### Tables of all devices -/

theorem size_of_settle {circuit : Circuit} {table next : Array Bool} {id : DeviceId}
    (settles : circuit.settle table id = .ok next) : next.size = table.size := by
  obtain ⟨device, _, evaluates⟩ := bind_eq_ok_iff.mp settles
  obtain ⟨value, _, entered⟩ := bind_eq_ok_iff.mp evaluates
  obtain rfl := Except.ok.inj entered
  exact Array.size_setIfInBounds ..

theorem size_foldlM_settle {circuit : Circuit} {ids : List DeviceId} {table final : Array Bool}
    (folds : ids.foldlM circuit.settle table = .ok final) : final.size = table.size := by
  induction ids generalizing table with
  | nil =>
    obtain rfl := Except.ok.inj folds
    rfl
  | cons id ids inductionHypothesis =>
    rw [List.foldlM_cons] at folds
    obtain ⟨next, settles, rest⟩ := bind_eq_ok_iff.mp folds
    rw [inductionHypothesis rest, size_of_settle settles]

section Evaluation

variable {circuit : Circuit} (wellFormed : circuit.WellFormed)
  (small : circuit.devices.size ≤ UInt32.size) (current : circuit.HasCurrentOrder)

include wellFormed small current

/-- The devices before the first Not gate without a reference are evaluated, then that gate
fails. -/
theorem outputTable_of_lacking (sorted : circuit.isSorted = true)
    (lacking : ¬ circuit.HasConnectedNots) : circuit.outputTable = .error .noReference := by
  have ordered := current.isEvaluationOrder sorted
  have isSome : (circuit.schedule.find? fun id =>
      circuit.device id = .ok (.gate .not [])).isSome = true := by
    unfold HasConnectedNots at lacking
    push Not at lacking
    obtain ⟨gate, member, lacks⟩ := lacking
    exact List.find?_isSome.mpr
      ⟨gate, (mem_schedule_iff ordered).mpr (Or.inr (Or.inl member)), decide_eq_true lacks⟩
  obtain ⟨gate, first⟩ := Option.isSome_iff_exists.mp isSome
  obtain ⟨lacks, earlier, later, split, before⟩ := List.find?_eq_some_iff_append.mp first
  have follows := follows_schedule wellFormed small ordered
  rw [split, follows_append] at follows
  have connected : ∀ id ∈ earlier,
      ∃ device, circuit.devices[id.index]? = some device ∧ device.IsConnected := by
    intro id member
    have scheduled : id ∈ circuit.schedule := split ▸ List.mem_append_left _ member
    have complete : circuit.device id ≠ .ok (.gate .not []) := by
      simpa using before id member
    exact exists_connected_of_ne wellFormed small ((mem_schedule_iff ordered).mp scheduled)
      complete
  obtain ⟨valuation, _, settles⟩ := exists_settles follows.1
    (fun id member => (connected id member).imp fun _ => And.left) fun _ => false
  obtain ⟨table, folds, _⟩ := foldlM_settle follows.1
    (fun id member => by
      obtain ⟨device, found, value⟩ := settles id member
      obtain ⟨same, sameFound, isConnected⟩ := connected id member
      obtain rfl := Option.some.inj (found.symm.trans sameFound)
      exact ⟨device, found, isConnected, value⟩)
    Array.size_replicate fun id member => by cases member
  have fails : circuit.settle table gate = .error .noReference := by
    rw [settle, of_decide_eq_true lacks]
    rfl
  rw [outputTable, if_pos sorted, split, List.foldlM_append, folds]
  show (gate :: later).foldlM circuit.settle table = _
  rw [List.foldlM_cons, fails]
  rfl

theorem outputTable_of_obstacle {misuse : Misuse} (obstacle : circuit.obstacle? = some misuse) :
    circuit.outputTable = .error misuse := by
  unfold obstacle? at obstacle
  split at obstacle
  · next unsorted =>
    obtain rfl := Option.some.inj obstacle
    rw [outputTable, unsorted]
    rfl
  · next sorted =>
    split at obstacle
    · cases obstacle
    · next lacking =>
      obtain rfl := Option.some.inj obstacle
      exact outputTable_of_lacking wellFormed small current (Bool.eq_true_of_not_eq_false sorted)
        lacking

/-- Without an obstacle, the output of every device is known. -/
theorem exists_outputTable (clear : circuit.obstacle? = none) :
    ∃ table, circuit.outputTable = .ok table ∧ table.size = circuit.devices.size := by
  obtain ⟨sorted, nots⟩ := obstacle?_eq_none_iff.mp clear
  have ordered := current.isEvaluationOrder sorted
  obtain ⟨_, settles⟩ := exists_settlesConnected wellFormed small ordered nots
  obtain ⟨table, tabulates, _⟩ := outputTable_eq_ok wellFormed small ordered sorted settles
  refine ⟨table, tabulates, ?_⟩
  rw [outputTable, if_pos sorted] at tabulates
  rw [size_foldlM_settle tabulates, Array.size_replicate]

end Evaluation

/-! ### Answers that fail -/

/-- Whether evaluation fails with a misuse, if there is one, and with no other: as a whole, as a row
and for any device of the circuit. -/
structure FailsJustWith (circuit : Circuit) (misuse? : Option Misuse) : Prop where
  outputValues : ∀ misuse, circuit.outputValues = .error misuse ↔ misuse? = some misuse
  simulate : ∀ misuse, circuit.simulate = .error misuse ↔ misuse? = some misuse
  deviceOutput : ∀ id device, circuit.device id = .ok device →
    ∀ misuse, circuit.deviceOutput id = .error misuse ↔ misuse? = some misuse

/-- An answer that is the obstacle, or else is known, is a misuse exactly if that is the
obstacle. -/
theorem eq_error_iff_obstacle {Value : Type} {answer : Except Misuse Value}
    {obstacle? : Option Misuse}
    (fails : ∀ misuse, obstacle? = some misuse → answer = .error misuse)
    (succeeds : obstacle? = none → ∃ value, answer = .ok value) (misuse : Misuse) :
    answer = .error misuse ↔ obstacle? = some misuse := by
  cases known : obstacle? with
  | none =>
    obtain ⟨value, rfl⟩ := succeeds known
    exact iff_of_false nofun nofun
  | some obstacle =>
    rw [fails obstacle known, Except.error.injEq, Option.some.injEq]

/-- Evaluation fails with the obstacle of the circuit. -/
theorem failsJustWith_obstacle {circuit : Circuit} (wellFormed : circuit.WellFormed)
    (small : circuit.devices.size ≤ UInt32.size) (current : circuit.HasCurrentOrder) :
    circuit.FailsJustWith circuit.obstacle? := by
  have fails := fun misuse (obstacle : circuit.obstacle? = some misuse) =>
    outputTable_of_obstacle wellFormed small current obstacle
  have outputs : circuit.obstacle? = none → ∃ values, circuit.outputValues = .ok values := by
    intro clear
    obtain ⟨sorted, nots⟩ := obstacle?_eq_none_iff.mp clear
    have ordered := current.isEvaluationOrder sorted
    obtain ⟨_, settles⟩ := exists_settlesConnected wellFormed small ordered nots
    exact ⟨_, outputValues_eq_ok wellFormed small ordered sorted settles⟩
  refine ⟨eq_error_iff_obstacle (fun misuse obstacle => ?_) outputs,
    eq_error_iff_obstacle (fun misuse obstacle => ?_) fun clear => ?_,
    fun id device found => eq_error_iff_obstacle (fun misuse obstacle => ?_) fun clear => ?_⟩
  · rw [outputValues, fails misuse obstacle]
    rfl
  · rw [simulate, outputValues, fails misuse obstacle]
    rfl
  · obtain ⟨values, evaluates⟩ := outputs clear
    exact ⟨_, bind_eq_ok_iff.mpr ⟨values, evaluates, rfl⟩⟩
  · rw [deviceOutput, fails misuse obstacle]
    rfl
  · -- The table has an entry for each device, also for one that is not listed.
    obtain ⟨table, tabulates, size⟩ := exists_outputTable wellFormed small current clear
    obtain ⟨inside, _⟩ := Array.getElem?_eq_some_iff.mp (device_eq_ok_iff.mp found)
    refine ⟨table[id.index], bind_eq_ok_iff.mpr ⟨table, tabulates, ?_⟩⟩
    rw [readOutput, Array.getElem?_eq_getElem]

/-! ### Enumerations that stop -/

/-- An enumeration of the assignments completes, unless there is a misuse. Then it stops at the
first assignment, in which all the pins are false, and changes nothing else. -/
def StopsAtOnce {Result : Type} (circuit : Circuit) (misuse? : Option Misuse)
    (answer : Except Misuse Result × Circuit) : Prop :=
  match misuse? with
  | none => ∃ result, answer.1 = .ok result
  | some misuse =>
    circuit.setInputs (List.replicate circuit.inputCount false) = .ok answer.2 ∧
      answer.2.outputValues = .error misuse ∧ answer.1 = .error misuse ∧
      answer.2 = circuit.withPins fun _ => false

theorem sweep_of_fails {Result : Type} {pattern : Nat → List Bool} {keep : Result → Row → Result}
    {count number : Nat} {result : Result} {circuit assigned : Circuit} {misuse : Misuse}
    (positive : 0 < count) (assigns : circuit.setInputs (pattern number) = .ok assigned)
    (fails : assigned.outputValues = .error misuse) :
    sweep pattern keep count number result circuit = (.error misuse, assigned) := by
  obtain ⟨more, rfl⟩ := Nat.exists_eq_add_of_le' positive
  unfold sweep
  simp only [assigns, fails]

section Enumerations

variable {circuit : Circuit} (reachable : circuit.Reachable)
  (small : circuit.devices.size < UInt32.size)

include reachable small

/-- Evaluation fails with the same obstacle whatever values the pins hold. -/
theorem failsJustWith_withPins (held : DeviceId → Bool) :
    (circuit.withPins held).FailsJustWith circuit.obstacle? := by
  rw [← obstacle?_withPins reachable small held]
  exact failsJustWith_obstacle (wellFormed_withPins reachable small held)
    ((size_withPins circuit held).trans_le small.le) (hasCurrentOrder_withPins reachable small held)

/-- The first assignment, at which an obstacle shows. -/
theorem setInputs_replicate_false :
    circuit.setInputs (List.replicate circuit.inputCount false) =
      .ok (circuit.withPins fun _ => false) := by
  have wellFormed := reachable.wellFormed small
  rw [setInputs_eq wellFormed small.le List.length_replicate,
    assigned_replicate wellFormed small.le]

theorem outputValues_withPins_of_obstacle {misuse : Misuse}
    (obstacle : circuit.obstacle? = some misuse) (held : DeviceId → Bool) :
    (circuit.withPins held).outputValues = .error misuse := by
  have fails := failsJustWith_withPins reachable small held
  exact (fails.outputValues misuse).mpr obstacle

theorem stopsAtOnce_truthTable (pins : 1 ≤ circuit.inputCount ∧ circuit.inputCount < 64) :
    circuit.StopsAtOnce circuit.obstacle? circuit.truthTable := by
  cases obstacle : circuit.obstacle? with
  | none =>
    obtain ⟨sorted, nots⟩ := obstacle?_eq_none_iff.mp obstacle
    have complete := truthTable_eq_fullTable (reachable.wellFormed small) small.le
      (responds_of_isSorted reachable small sorted nots) pins
    exact ⟨circuit.fullTable, by rw [complete]⟩
  | some misuse =>
    have assigns := setInputs_replicate_false reachable small
    have fails := outputValues_withPins_of_obstacle reachable small obstacle fun _ => false
    have first := Pattern.bigEndian_zero circuit.inputCount
    have stops : circuit.sweepAssignments Array.push #[] =
        (.error misuse, circuit.withPins fun _ => false) := by
      unfold sweepAssignments
      rw [Assignments.all, if_neg (by omega), if_neg (by omega)]
      exact sweep_of_fails (Pattern.count_pos circuit.inputCount) (first ▸ assigns) fails
    unfold truthTable
    rw [stops]
    exact ⟨assigns, fails, rfl, rfl⟩

/-- With an obstacle, the enumeration of the output functions stops, whatever is kept of a row. -/
theorem sweep_littleEndian_of_obstacle {misuse : Misuse}
    (obstacle : circuit.obstacle? = some misuse) {Result : Type} (keep : Result → Row → Result)
    (result : Result) :
    sweep (Pattern.littleEndian circuit.inputCount) keep (Pattern.count circuit.inputCount) 0 result
      circuit = (.error misuse, circuit.withPins fun _ => false) := by
  have assigns := setInputs_replicate_false reachable small
  rw [← Pattern.littleEndian_zero] at assigns
  exact sweep_of_fails (Pattern.count_pos circuit.inputCount) assigns
    (outputValues_withPins_of_obstacle reachable small obstacle _)

theorem stopsAtOnce_outputFunctions :
    circuit.StopsAtOnce circuit.obstacle? circuit.outputFunctions := by
  cases obstacle : circuit.obstacle? with
  | none =>
    obtain ⟨sorted, nots⟩ := obstacle?_eq_none_iff.mp obstacle
    exact ⟨_, congrArg Prod.fst (outputFunctions_eq reachable small sorted nots)⟩
  | some misuse =>
    unfold outputFunctions
    simp only [sweep_littleEndian_of_obstacle reachable small obstacle]
    exact ⟨setInputs_replicate_false reachable small,
      outputValues_withPins_of_obstacle reachable small obstacle _, rfl, rfl⟩

theorem stopsAtOnce_fillFunctions {Table : Type} (tables : BitTables circuit.inputCount Table) :
    circuit.StopsAtOnce circuit.obstacle? (circuit.fillFunctions tables) := by
  cases obstacle : circuit.obstacle? with
  | none =>
    obtain ⟨sorted, nots⟩ := obstacle?_eq_none_iff.mp obstacle
    exact ⟨_, congrArg Prod.fst (fillFunctions_eq reachable small sorted nots tables)⟩
  | some misuse =>
    unfold fillFunctions
    simp only [sweep_littleEndian_of_obstacle reachable small obstacle]
    exact ⟨setInputs_replicate_false reachable small,
      outputValues_withPins_of_obstacle reachable small obstacle _, rfl, rfl⟩

/-- The evaluation of a reachable circuit fails exactly if the gates are not sorted or some Not gate
has no reference, whatever values the pins hold. So the enumerations of all assignments either
complete or stop at the first one. -/
theorem evaluation_fails_spec :
    (circuit.obstacle?.isSome ↔ circuit.isSorted = false ∨
      ∃ gate ∈ circuit.gates, circuit.device gate = .ok (.gate .not [])) ∧
    circuit.FailsJustWith circuit.obstacle? ∧
    (∀ values : List Bool, values.length = circuit.inputCount →
      ∃ assigned, circuit.setInputs values = .ok assigned ∧
        assigned.FailsJustWith circuit.obstacle?) ∧
    (1 ≤ circuit.inputCount ∧ circuit.inputCount < 64 →
      circuit.StopsAtOnce circuit.obstacle? circuit.truthTable) ∧
    (circuit.inputCount < 64 →
      circuit.StopsAtOnce circuit.obstacle? circuit.outputFunctions) := by
  refine ⟨isSome_obstacle?_iff, ?_, fun values length => ?_,
    stopsAtOnce_truthTable reachable small, fun _ => stopsAtOnce_outputFunctions reachable small⟩
  · exact failsJustWith_obstacle (reachable.wellFormed small) small.le
      (reachable.hasCurrentOrder small)
  · obtain ⟨held, assigns, _⟩ := exists_assigned reachable small length
    exact ⟨_, assigns, failsJustWith_withPins reachable small held⟩

end Enumerations

/-- The And gate would not ask for the Not gate, as its first reference is false. Still the Not gate
keeps the circuit from being evaluated, and the enumeration stops with both pins false. -/
theorem stopsAtOnce_unconnected_not :
    let circuit := ofOperations [.addInputs 2, .addGate .and, .addGate .not,
      .connect (.ofIndex 2) (.ofIndex 0), .connect (.ofIndex 2) (.ofIndex 3),
      .addOutput (.ofIndex 2), .sort, .setInput 2 true]
    circuit.Reachable ∧ circuit.devices.size < UInt32.size ∧
      (1 ≤ circuit.inputCount ∧ circuit.inputCount < 64) ∧
      circuit.obstacle? = some .noReference ∧ circuit.truthTable.1 = .error .noReference ∧
      circuit.truthTable.2 = circuit.withPins fun _ => false := by
  intro circuit
  have reachable : circuit.Reachable := reachable_ofOperations _
  have small : circuit.devices.size < UInt32.size := by decide
  have pins : 1 ≤ circuit.inputCount ∧ circuit.inputCount < 64 := by decide
  have obstacle : circuit.obstacle? = some .noReference := by decide
  obtain ⟨_, _, _, stops, _⟩ := evaluation_fails_spec reachable small
  have atOnce := stops pins
  rw [obstacle] at atOnce
  obtain ⟨_, _, fails, pinsFalse⟩ := atOnce
  exact ⟨reachable, small, pins, obstacle, fails, pinsFalse⟩

end Circuit

end Combinational
