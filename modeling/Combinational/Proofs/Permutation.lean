/-
This file proves that the order of the gates in a description does not matter.

Permuting the gates of a description gives them new numbers. The permuted description fails for the
same reason, or it loads a circuit whose gates have the same values, outputs and statistics. That
circuit has another arena, evaluation order and order of output pins. But all that can be observed
of a circuit follows from the equations of its statements and from which gates no gate reads.
-/

import Combinational.Proofs.Canonical
import Combinational.Proofs.Depth
import Combinational.Proofs.Renumbering

namespace Combinational

/-! ### The statistics and outputs of an assembled circuit -/

theorem foldl_max_of_perm {first second : List Nat} (perm : first.Perm second) :
    first.foldl max 0 = second.foldl max 0 :=
  perm.foldl_eq 0

namespace Circuit

section Assembled

variable {inputs : Nat} {statements : List Statement} {circuit : Circuit}
  (small : inputs + statements.length < UInt32.size)
  (defined : Statement.AreDefined inputs statements)
  (room : inputs + statements.length + (Statement.unread statements).length < UInt32.size)
  (assembles : assemble inputs statements = .ok circuit)

include small defined assembles

theorem isAcyclic_of_assemble : Statement.IsAcyclic statements := by
  obtain ⟨_, sorted, sorts, _⟩ := (assemble_eq_ok_iff small defined).mp assembles
  refine (isAcyclic_wired_iff small defined).mp ?_
  exact (sorts_iff_isAcyclic (wellFormed_wired small defined) (size_wired_le small)).mp
    ⟨sorted, sorts⟩

include room

/-- The equations of the statements can be solved, whatever the rule. -/
theorem exists_solves_rule {Value : Type} (rule : Rule Value) :
    ∃ gates, rule.Solves statements gates := by
  obtain ⟨wellFormed, bounded⟩ :=
    wellFormed_assemble small defined room assembles
  obtain ⟨valuation, fits⟩ := Rule.exists_fits rule wellFormed bounded
    (isAssembled_of_assemble small defined assembles).isEvaluationOrder
  have solves := fits.solves wellFormed bounded
  rw [describe_of_assemble small defined assembles] at solves
  exact ⟨_, solves⟩

/-- The counts of an assembled circuit are those of its statements. The depth is that of the deepest
gate that no gate reads. -/
theorem statistics_of_assemble {depths : Nat → Nat} (solves : Rule.depth.Solves statements depths) :
    circuit.statistics = .ok { statements.foldl Statistics.recordStatement
      { inputs, outputs := (Statement.unread statements).length } with
      depth := ((Statement.unread statements).map depths).foldl max 0 } := by
  have assembled := isAssembled_of_assemble small defined assembles
  have described := describe_of_assemble small defined assembles
  have acyclic := isAcyclic_of_assemble small defined assembles
  obtain ⟨wellFormed, bounded⟩ :=
    wellFormed_assemble small defined room assembles
  obtain ⟨valuation, fits⟩ := Rule.exists_fits Rule.depth wellFormed bounded
    assembled.isEvaluationOrder
  have own := fits.solves wellFormed bounded
  rw [described] at own
  have measured := depth_eq_ok fits wellFormed bounded assembled.isEvaluationOrder
    assembled.isSorted assembled.size_devices.le
  have depthsOfGates : ((Statement.unread statements).map (gateId inputs)).map valuation =
      (Statement.unread statements).map depths := by
    rw [List.map_map]
    refine List.map_congr_left fun number unread => ?_
    have range := (Statement.mem_unread_iff.mp unread).1
    rw [← Rule.eq_of_solves defined acyclic own solves range, Function.comp_apply,
      Function.comp_apply, gateOf_of_locate (assembled.locate_gate range)]
  rw [assembled.flatMap_references_outputs bounded, depthsOfGates] at measured
  have counted := statistics_eq_ok wellFormed bounded measured
  have outputs : circuit.outputCount = (Statement.unread statements).length := by
    rw [outputCount, ← Array.length_toList, assembled.outputs_eq, List.length_map,
      List.length_range']
  rwa [described, (counts_of_assemble assembles).1, outputs] at counted

/-- The gates that drive an output pin are those that no gate reads. -/
theorem exists_output_iff_mem_unread {number : Nat} {gate : DeviceId}
    (located : circuit.locate (.gate number) = some gate) :
    (∃ output ∈ circuit.outputs, gate ∈ circuit.references output) ↔
      number ∈ Statement.unread statements := by
  have assembled := isAssembled_of_assemble small defined assembles
  obtain ⟨wellFormed, bounded⟩ :=
    wellFormed_assemble small defined room assembles
  have named := (Lcf.source?_eq_some_iff wellFormed bounded).mpr located
  have driving : (∃ output ∈ circuit.outputs, gate ∈ circuit.references output) ↔
      gate ∈ (Statement.unread statements).map (gateId inputs) := by
    rw [← assembled.flatMap_references_outputs bounded, List.mem_flatMap]
    simp only [Array.mem_toList_iff]
  rw [driving, List.mem_map]
  constructor
  · rintro ⟨other, unread, rfl⟩
    have otherLocated := assembled.locate_gate (Statement.mem_unread_iff.mp unread).1
    have otherNamed := (Lcf.source?_eq_some_iff wellFormed bounded).mpr otherLocated
    exact Source.gate.inj (Option.some.inj (otherNamed.symm.trans named)) ▸ unread
  · intro unread
    have here := assembled.locate_gate (Statement.mem_unread_iff.mp unread).1
    exact ⟨number, unread, Option.some.inj (here.symm.trans located)⟩

variable (connected : ∀ statement ∈ statements, statement.sources ≠ [])

include connected

theorem hasConnectedNots_of_assemble : circuit.HasConnectedNots := by
  have described := describe_of_assemble small defined assembles
  obtain ⟨wellFormed, bounded⟩ := wellFormed_assemble small defined room assembles
  refine hasConnectedNots_of_connected ((Lcf.sources_ne_nil_iff wellFormed bounded).mp ?_)
  rw [described]
  exact connected

/-- Every gate of an assembled circuit has its statement, and with a source for each statement the
circuit is ready to be evaluated. -/
theorem exists_solves_of_assemble {values : List Bool} (length : values.length = inputs) :
    ∃ assigned gates, circuit.setInputs values = .ok assigned ∧
      (Rule.logic values).Solves statements gates ∧
      ∀ number gate, circuit.locate (.gate number) = some gate →
        assigned.deviceOutput gate = .ok (gates number) := by
  have solvable := exists_solves_logic (reachable_assemble small defined room assembles)
    (size_assemble small defined room assembles)
    (isAssembled_of_assemble small defined assembles).isSorted
    (hasConnectedNots_of_assemble small defined room assembles connected)
    (length.trans (counts_of_assemble assembles).1.symm)
  rwa [describe_of_assemble small defined assembles] at solvable

/-- The outputs of an assembled circuit are the values of the gates that no gate reads. -/
theorem exists_outputValues_of_assemble {values : List Bool} (length : values.length = inputs) :
    ∃ assigned gates, circuit.setInputs values = .ok assigned ∧
      (Rule.logic values).Solves statements gates ∧
      assigned.outputValues = .ok ((Statement.unread statements).map gates) := by
  have bounded := size_assemble small defined room assembles
  have reachable := reachable_assemble small defined room assembles
  have wellFormed := reachable.wellFormed bounded
  have assembled := isAssembled_of_assemble small defined assembles
  have nots := hasConnectedNots_of_assemble small defined room assembles connected
  obtain ⟨value, valuation, assigns, given, assignedWellFormed, ordered, settles⟩ :=
    exists_valuation reachable bounded assembled.isSorted nots
      (length.trans (counts_of_assemble assembles).1.symm)
  have solves := (Rule.fits_logic wellFormed bounded.le given settles).solves wellFormed bounded.le
  rw [describe_of_assemble small defined assembles] at solves
  refine ⟨_, _, assigns, solves, ?_⟩
  rw [outputValues_eq_ok assignedWellFormed (by rw [size_withPins]; exact bounded.le) ordered
    assembled.isSorted settles]
  -- Each output pin has the value of the gate that it forwards.
  refine congrArg Except.ok (List.ext_getElem? fun position => ?_)
  have forwards := congrArg (·[position]?) (assembled.map_device_outputs bounded.le)
  simp only [List.getElem?_map] at forwards ⊢
  show (circuit.outputs.toList[position]?).map valuation = _
  cases unread : (Statement.unread statements)[position]? with
  | none =>
    rw [unread, Option.map_none, Option.map_eq_none_iff] at forwards
    rw [forwards, Option.map_none, Option.map_none]
  | some number =>
    rw [unread, Option.map_some, Option.map_eq_some_iff] at forwards
    obtain ⟨output, listed, found⟩ := forwards
    have member : output ∈ circuit.outputs :=
      Array.mem_toList_iff.mp (List.mem_of_getElem? listed)
    obtain ⟨device, deviceFound, _, settled⟩ := settles output (Or.inr (Or.inr member))
    rw [getElem?_withPins_of_not_input (device_eq_ok_iff.mp found) rfl] at deviceFound
    obtain rfl := Option.some.inj deviceFound
    have range := (Statement.mem_unread_iff.mp (List.mem_of_getElem? unread)).1
    rw [listed, Option.map_some, Option.map_some, settled, Function.comp_apply,
      gateOf_of_locate (assembled.locate_gate range)]
    rfl

end Assembled

/-! ### Circuits with permuted gates -/

/-- A circuit has the gates of another one in another order. The gate that is found at the new
position of a gate has its values, and drives an output pin if that gate does. -/
structure IsPermuted {count : Nat} (permutation : Equiv.Perm (Fin count))
    (circuit permuted : Circuit) : Prop where
  inputCount_eq : permuted.inputCount = circuit.inputCount
  gateCount_eq : circuit.gateCount = count ∧ permuted.gateCount = count
  same_values : ∀ values : List Bool, values.length = circuit.inputCount →
    ∃ assigned permutedAssigned, circuit.setInputs values = .ok assigned ∧
      permuted.setInputs values = .ok permutedAssigned ∧
      ∀ (position : Fin count) (gate moved : DeviceId),
        circuit.gates[position.val]? = some gate →
        permuted.gates[(permutation position).val]? = some moved → ∃ value,
          assigned.deviceOutput gate = .ok value ∧ permutedAssigned.deviceOutput moved = .ok value
  drives_iff : ∀ (position : Fin count) (gate moved : DeviceId),
    circuit.gates[position.val]? = some gate →
    permuted.gates[(permutation position).val]? = some moved →
      ((∃ output ∈ permuted.outputs, moved ∈ permuted.references output) ↔
        ∃ output ∈ circuit.outputs, gate ∈ circuit.references output)
  same_statistics : ∃ statistics, circuit.statistics = .ok statistics ∧
    permuted.statistics = .ok statistics

open Statement

theorem isPermuted_of_assemble {inputs : Nat} {statements : List Statement}
    {circuit permuted : Circuit} (small : inputs + statements.length < UInt32.size)
    (defined : AreDefined inputs statements)
    (room : inputs + statements.length + statements.length < UInt32.size)
    (connected : ∀ statement ∈ statements, statement.sources ≠ [])
    (permutation : Equiv.Perm (Fin statements.length))
    (assembles : assemble inputs statements = .ok circuit)
    (permutedAssembles : assemble inputs (permute statements permutation) = .ok permuted) :
    IsPermuted permutation circuit permuted := by
  have renumbered := isRenumbered_permute statements permutation
  have permutedDefined := renumbered.areDefined defined
  have permutedConnected := renumbered.sources_ne_nil connected
  have acyclic := isAcyclic_of_assemble small defined assembles
  have counts := counts_of_assemble assembles
  have permutedCounts := counts_of_assemble permutedAssembles
  have length := renumbered.length_eq
  have permutedSmall : inputs + (permute statements permutation).length < UInt32.size := by
    rwa [length]
  have fits := outputs_fit room
  have permutedFits : inputs + (permute statements permutation).length +
      (unread (permute statements permutation)).length < UInt32.size :=
    outputs_fit (by rwa [length])
  refine ⟨permutedCounts.1.trans counts.1.symm, ⟨counts.2, permutedCounts.2.trans length⟩,
    fun values valuesLength => ?_, fun position gate moved listed movedListed => ?_, ?_⟩
  · rw [counts.1] at valuesLength
    obtain ⟨assigned, gates, assigns, solves, outputs⟩ := exists_solves_of_assemble small defined
      fits assembles connected valuesLength
    obtain ⟨permutedAssigned, permutedGates, permutedAssigns, permutedSolves, permutedOutputs⟩ :=
      exists_solves_of_assemble permutedSmall permutedDefined permutedFits permutedAssembles
        permutedConnected valuesLength
    refine ⟨assigned, permutedAssigned, assigns, permutedAssigns,
      fun position gate moved listed movedListed =>
        ⟨gates (position + 1), outputs (position + 1) gate listed, ?_⟩⟩
    rw [Rule.eq_of_solves defined acyclic solves (renumbered.solves permutedSolves)
      ⟨Nat.le_add_left .., position.isLt⟩]
    have number : renumbering permutation (position + 1) = permutation position + 1 :=
      renumber_succ permutation position
    rw [Function.comp_apply, number]
    exact permutedOutputs (permutation position + 1) moved movedListed
  · have number : renumbering permutation (position + 1) = permutation position + 1 :=
      renumber_succ permutation position
    have located : circuit.locate (.gate (position + 1)) = some gate := listed
    have movedLocated : permuted.locate (.gate (permutation position + 1)) = some moved :=
      movedListed
    rw [exists_output_iff_mem_unread permutedSmall permutedDefined permutedFits permutedAssembles
        movedLocated, exists_output_iff_mem_unread small defined fits assembles located, ← number]
    exact renumbered.mem_unread_iff
  · obtain ⟨depths, solves⟩ := exists_solves_rule permutedSmall permutedDefined permutedFits
      permutedAssembles Rule.depth
    have deepest := foldl_max_of_perm (renumbered.unread_perm.map depths)
    rw [List.map_map] at deepest
    refine ⟨_, statistics_of_assemble small defined fits assembles (renumbered.solves solves), ?_⟩
    rw [statistics_of_assemble permutedSmall permutedDefined permutedFits permutedAssembles solves,
      renumbered.foldl_recordStatement, renumbered.unread_perm.length_eq, List.length_map, deepest]

end Circuit

namespace Lcf

/-! ### Main statement -/

/-- The description with its gates permuted. -/
def Description.permute (description : Description)
    (permutation : Equiv.Perm (Fin description.statements.length)) : Description :=
  { description with statements := Statement.permute description.statements permutation }

section Declared

variable {description : Description} (counted : description.IsCounted)
  (declared : ∀ statement ∈ description.statements, ∀ source ∈ statement.sources,
    description.Declares source)

include counted

theorem isCounted_permute (permutation : Equiv.Perm (Fin description.statements.length)) :
    (description.permute permutation).IsCounted where
  inputs := counted.inputs
  gates := counted.gates
  statements :=
    (Statement.isRenumbered_permute description.statements permutation).length_eq.trans
      counted.statements

include declared

theorem declares_permute (permutation : Equiv.Perm (Fin description.statements.length)) :
    ∀ statement ∈ (description.permute permutation).statements, ∀ source ∈ statement.sources,
      (description.permute permutation).Declares source := by
  have renumbered := Statement.isRenumbered_permute description.statements permutation
  exact (isCounted_permute counted permutation).areDefined_iff.mp
    (renumbered.areDefined (counted.areDefined_iff.mpr declared))

end Declared

end Lcf

end Combinational
