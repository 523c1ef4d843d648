/-
This file proves what chains of inverters compute.

The gates of a chain are declared in the order of the signal: the first reads the input pin and each
other one the gate before it. So whatever solves the equations of the gates alternates along the
chain, each gate is one deeper than the one before, and no order but this one is an evaluation
order. The last gate alone drives an output pin.

A chain can be declared in any other order, up to the reverse one, in which every gate reads a later
one. The solutions of its equations are the same under the new numbers of the gates, so the circuit
that is loaded has the same function and the same depth.
-/

import Combinational.Proofs.Building
import Combinational.Proofs.Growth
import Combinational.Proofs.OutputFunctions
import Combinational.Proofs.Permutation
import Combinational.Proofs.RoundTrip

namespace Combinational

namespace Circuit

/-! ### The statements of a chain -/

theorem length_chainStatements (length : Nat) : (chainStatements length).length = length := by
  simp [chainStatements]

theorem getElem?_chainStatements {length position : Nat} (inside : position < length) :
    (chainStatements length)[position]? = some
      { kind := .not, sources := [if position = 0 then .input 1 else .gate position] } := by
  simp [chainStatements, inside]

theorem exists_of_mem_chainStatements {length : Nat} {statement : Statement}
    (member : statement ∈ chainStatements length) : ∃ position < length, statement =
      { kind := .not, sources := [if position = 0 then .input 1 else .gate position] } := by
  simpa [chainStatements, eq_comm] using member

theorem chainStatements_succ (length : Nat) :
    chainStatements (length + 1) = chainStatements length ++
      [{ kind := .not, sources := [if length = 0 then .input 1 else .gate length] }] := by
  rw [chainStatements, List.range_succ, List.map_append]
  rfl

theorem areDefined_chainStatements (length : Nat) :
    Statement.AreDefined 1 (chainStatements length) := by
  intro statement member source listed
  obtain ⟨position, inside, rfl⟩ := exists_of_mem_chainStatements member
  rw [List.mem_singleton.mp listed, length_chainStatements]
  split
  · rfl
  · exact Source.isDefined_gate.mpr (by omega)

theorem sources_ne_nil_chainStatements (length : Nat) :
    ∀ statement ∈ chainStatements length, statement.sources ≠ [] := by
  intro statement member
  obtain ⟨position, _, rfl⟩ := exists_of_mem_chainStatements member
  exact List.cons_ne_nil _ _

theorem reads_chainStatements_iff {length consumer source : Nat} :
    Statement.Reads (chainStatements length) consumer source ↔
      1 ≤ source ∧ consumer = source + 1 ∧ consumer ≤ length := by
  constructor
  · rintro ⟨position, statement, given, rfl, listed⟩
    obtain ⟨inside, _⟩ := List.getElem?_eq_some_iff.mp given
    rw [length_chainStatements] at inside
    rw [getElem?_chainStatements inside] at given
    obtain rfl := Option.some.inj given
    have named := List.mem_singleton.mp listed
    split at named
    · cases named
    · obtain rfl := Source.gate.inj named
      omega
  · rintro ⟨positive, rfl, inside⟩
    refine ⟨source, _, getElem?_chainStatements inside, rfl, ?_⟩
    rw [if_neg (by omega)]
    exact List.mem_singleton_self _

theorem isAcyclic_chainStatements (length : Nat) :
    Statement.IsAcyclic (chainStatements length) := by
  refine loopless_of_rank id fun consumer source reads => ?_
  obtain ⟨_, next, _⟩ := reads_chainStatements_iff.mp reads
  exact Nat.lt_of_succ_le next.ge

/-- The last gate is the only one that no gate reads. -/
theorem unread_chainStatements {length : Nat} (positive : 0 < length) :
    Statement.unread (chainStatements length) = [length] := by
  refine eq_of_pairwise (Statement.pairwise_unread _) (List.pairwise_singleton _ _) fun gate => ?_
  rw [Statement.mem_unread_iff, length_chainStatements, List.mem_singleton]
  constructor
  · rintro ⟨range, free⟩
    by_contra earlier
    obtain ⟨_, statement, given, _, listed⟩ := reads_chainStatements_iff.mpr
      ⟨range.1, rfl, Nat.lt_of_le_of_ne range.2 earlier⟩
    exact free statement (List.mem_of_getElem? given) listed
  · rintro rfl
    refine ⟨⟨positive, le_rfl⟩, fun statement member listed => ?_⟩
    obtain ⟨position, given⟩ := List.getElem?_of_mem member
    have reads := reads_chainStatements_iff.mp ⟨position, statement, given, rfl, listed⟩
    omega

/-! ### What a chain computes -/

theorem numbered?_chainStatements_one {length : Nat} (positive : 0 < length) :
    Statement.numbered? (chainStatements length) 1 =
      some { kind := .not, sources := [.input 1] } :=
  getElem?_chainStatements positive

theorem numbered?_chainStatements_succ {length gate : Nat} (positive : 1 ≤ gate)
    (inside : gate < length) :
    Statement.numbered? (chainStatements length) (gate + 1) =
      some { kind := .not, sources := [.gate gate] } := by
  rw [Statement.numbered?, getElem?_chainStatements inside, if_neg (by omega)]

/-- The values of the gates alternate, the first one being the opposite of the pin. -/
theorem eq_xor_of_solves_chain {length : Nat} {value : Bool} {gates : Nat → Bool}
    (solves : (Rule.logic [value]).Solves (chainStatements length) gates) {gate : Nat}
    (positive : 1 ≤ gate) (inside : gate ≤ length) :
    gates gate = (value ^^ decide (gate % 2 = 1)) := by
  induction gate, positive using Nat.le_induction with
  | base =>
    have first := solves 1 _ (numbered?_chainStatements_one inside)
    rw [first]
    cases value <;> rfl
  | succ gate positive inductionHypothesis =>
    have next := solves (gate + 1) _ (numbered?_chainStatements_succ positive inside)
    have opposite : gates (gate + 1) = !gates gate := next
    rw [opposite, inductionHypothesis (by omega)]
    rcases Nat.mod_two_eq_zero_or_one gate with even | odd <;> cases value <;>
      simp [Nat.add_mod, *]

/-- Each gate is as deep as its number. -/
theorem eq_of_solves_depth_chain {length : Nat} {depths : Nat → Nat}
    (solves : Rule.depth.Solves (chainStatements length) depths) {gate : Nat}
    (positive : 1 ≤ gate) (inside : gate ≤ length) : depths gate = gate := by
  induction gate, positive using Nat.le_induction with
  | base => exact solves 1 _ (numbered?_chainStatements_one inside)
  | succ gate positive inductionHypothesis =>
    have next := solves (gate + 1) _ (numbered?_chainStatements_succ positive inside)
    have deeper : depths (gate + 1) = max 0 (depths gate) + 1 := next
    rw [deeper, inductionHypothesis (by omega), Nat.zero_max]

/-! ### Chains in any order -/

/-- A circuit with one input pin and one output pin, which inverts the value of the input pin once
for each gate on its longest path. -/
structure Inverts (circuit : Circuit) (length : Nat) : Prop where
  inputCount_eq : circuit.inputCount = 1
  exists_outputValues : ∀ value, ∃ assigned, circuit.setInputs [value] = .ok assigned ∧
    assigned.outputValues = .ok [value ^^ decide (length % 2 = 1)]
  outputFunctions_eq : circuit.outputFunctions.1 =
    .ok [LookupTable.ofValues 1 #[decide (length % 2 = 1), !decide (length % 2 = 1)]]
  exists_statistics : ∃ statistics, circuit.statistics = .ok statistics ∧
    statistics.depth = length

theorem response_eq_of_outputValues {circuit assigned : Circuit} (wellFormed : circuit.WellFormed)
    (small : circuit.devices.size ≤ UInt32.size) {values outputs : List Bool}
    (length : values.length = circuit.inputCount)
    (assigns : circuit.setInputs values = .ok assigned)
    (evaluates : assigned.outputValues = .ok outputs) : circuit.response values = outputs := by
  rw [setInputs_eq wellFormed small length] at assigns
  obtain rfl := Except.ok.inj assigns
  rw [response, evaluates]

/-- The function of a single output that depends on a single pin. -/
theorem outputFunctions_eq_of_response {circuit : Circuit} (reachable : circuit.Reachable)
    (small : circuit.devices.size < UInt32.size) (sorted : circuit.isSorted = true)
    (nots : circuit.HasConnectedNots) (pins : circuit.inputCount = 1)
    (outputs : circuit.outputCount = 1) {function : Bool → Bool}
    (responds : ∀ value, circuit.response [value] = [function value]) :
    circuit.outputFunctions.1 = .ok [LookupTable.ofValues 1 #[function false, function true]] := by
  have low : circuit.outputBit 0 0 = function false := by
    have response : circuit.response (Pattern.littleEndian 1 0) = [function false] :=
      responds false
    rw [outputBit, pins, response]
    rfl
  have high : circuit.outputBit 0 1 = function true := by
    have response : circuit.response (Pattern.littleEndian 1 1) = [function true] :=
      responds true
    rw [outputBit, pins, response]
    rfl
  rw [outputFunctions_eq reachable small sorted nots, outputs, pins]
  show Except.ok [LookupTable.ofValues 1 #[circuit.outputBit 0 0, circuit.outputBit 0 1]] = _
  rw [low, high]

section Renumbered

variable {length : Nat} (positive : 0 < length) (room : length + 2 < UInt32.size)
  {number : Equiv.Perm Nat} {statements : List Statement}
  (renumbered : Statement.IsRenumbered number (chainStatements length) statements)

include positive renumbered

theorem unread_of_isRenumbered : Statement.unread statements = [number length] := by
  have perm := renumbered.unread_perm
  rw [unread_chainStatements positive] at perm
  exact List.perm_singleton.mp perm

include room

/-- There is room for the pin, the gates and the output pin. -/
theorem fits_of_isRenumbered :
    1 + statements.length + (Statement.unread statements).length < UInt32.size := by
  rw [unread_of_isRenumbered positive renumbered, renumbered.length_eq, length_chainStatements,
    List.length_singleton]
  omega

section Assembled

variable {circuit : Circuit} (assembles : assemble 1 statements = .ok circuit)

include assembles

theorem outputValues_of_isRenumbered (value : Bool) :
    ∃ assigned, circuit.setInputs [value] = .ok assigned ∧
      assigned.outputValues = .ok [value ^^ decide (length % 2 = 1)] := by
  have fits := fits_of_isRenumbered positive room renumbered
  obtain ⟨assigned, gates, assigns, solves, evaluates⟩ := exists_outputValues_of_assemble
    (Nat.lt_of_add_right_lt fits) (renumbered.areDefined (areDefined_chainStatements length)) fits
    assembles (renumbered.sources_ne_nil (sources_ne_nil_chainStatements length))
    (rfl : [value].length = 1)
  have last : gates (number length) = (value ^^ decide (length % 2 = 1)) :=
    eq_xor_of_solves_chain (renumbered.solves solves) positive le_rfl
  rw [unread_of_isRenumbered positive renumbered, List.map_singleton, last] at evaluates
  exact ⟨assigned, assigns, evaluates⟩

theorem statistics_of_isRenumbered :
    ∃ statistics, circuit.statistics = .ok statistics ∧ statistics.depth = length := by
  have fits := fits_of_isRenumbered positive room renumbered
  have small := Nat.lt_of_add_right_lt fits
  have defined := renumbered.areDefined (areDefined_chainStatements length)
  obtain ⟨depths, solves⟩ := exists_solves_rule small defined fits assembles Rule.depth
  have deepest : depths (number length) = length :=
    eq_of_solves_depth_chain (renumbered.solves solves) positive le_rfl
  refine ⟨_, statistics_of_assemble small defined fits assembles solves, ?_⟩
  rw [unread_of_isRenumbered positive renumbered, List.map_singleton, deepest]
  exact Nat.zero_max length

theorem inverts_of_isRenumbered : circuit.Inverts length := by
  have fits := fits_of_isRenumbered positive room renumbered
  have small := Nat.lt_of_add_right_lt fits
  have defined := renumbered.areDefined (areDefined_chainStatements length)
  have connected := renumbered.sources_ne_nil (sources_ne_nil_chainStatements length)
  have assembled := isAssembled_of_assemble small defined assembles
  have bounded := size_assemble small defined fits assembles
  have reachable := reachable_assemble small defined fits assembles
  have pins : circuit.inputCount = 1 := (counts_of_assemble assembles).1
  have outputs : circuit.outputCount = 1 := by
    rw [outputCount, ← Array.length_toList, assembled.outputs_eq,
      unread_of_isRenumbered positive renumbered]
    rfl
  have evaluates := outputValues_of_isRenumbered positive room renumbered assembles
  have responds : ∀ value, circuit.response [value] = [value ^^ decide (length % 2 = 1)] := by
    intro value
    obtain ⟨assigned, assigns, evaluates⟩ := evaluates value
    exact response_eq_of_outputValues (reachable.wellFormed bounded) bounded.le pins.symm assigns
      evaluates
  refine ⟨pins, evaluates, ?_, statistics_of_isRenumbered positive room renumbered assembles⟩
  rw [outputFunctions_eq_of_response reachable bounded assembled.isSorted
    (hasConnectedNots_of_assemble small defined fits assembles connected) pins outputs responds,
    Bool.false_xor, Bool.true_xor]

end Assembled

/-- A chain that is declared in any order can be assembled, and inverts its input pin. -/
theorem exists_assemble_of_isRenumbered :
    ∃ circuit, assemble 1 statements = .ok circuit ∧ circuit.Inverts length := by
  have small := Nat.lt_of_add_right_lt (fits_of_isRenumbered positive room renumbered)
  obtain ⟨circuit, assembles, _⟩ := assemble_of_isAcyclic small
    (renumbered.areDefined (areDefined_chainStatements length))
    (unread_of_isRenumbered positive renumbered ▸ List.cons_ne_nil _ _)
    (renumbered.isAcyclic_iff.mpr (isAcyclic_chainStatements length))
  exact ⟨circuit, assembles, inverts_of_isRenumbered positive room renumbered assembles⟩

end Renumbered

/-! ### The chain in its own order -/

/-- Whether one device comes before another one in a list. -/
def ComesBefore (order : List DeviceId) (first second : DeviceId) : Prop :=
  order.idxOf first < order.idxOf second

instance (order : List DeviceId) : Std.Asymm (ComesBefore order) where
  asymm _ _ := Nat.lt_asymm

instance (order : List DeviceId) :
    Trans (ComesBefore order) (ComesBefore order) (ComesBefore order) where
  trans := Nat.lt_trans

theorem pairwise_comesBefore {order : List DeviceId} (nodup : order.Nodup) :
    order.Pairwise (ComesBefore order) := by
  refine List.pairwise_iff_getElem.mpr fun first second firstInside secondInside less => ?_
  rw [ComesBefore, nodup.idxOf_getElem, nodup.idxOf_getElem]
  exact less

/-- Where each gate reads the one before it, the gates are evaluated in their order. -/
theorem order_eq_gates_of_reads {circuit : Circuit}
    (ordered : circuit.IsEvaluationOrder circuit.order.toList)
    (reads : circuit.gates.toList.IsChain fun source consumer => circuit.Reads consumer source) :
    circuit.order = circuit.gates := by
  have chained : circuit.gates.toList.IsChain (ComesBefore circuit.order.toList) :=
    reads.imp fun source consumer => ordered.before consumer source
  -- Both lists have the same members, in the order in which they are evaluated.
  refine Array.toList_inj.mp (eq_of_pairwise (pairwise_comesBefore ordered.nodup)
    (List.isChain_iff_pairwise.mp chained) fun id => ?_)
  rw [ordered.mem_iff, Array.mem_toList_iff]

/-- The gates of a chain are evaluated in the order in which they were created. -/
theorem order_eq_gates_of_isAssembled {length : Nat} {circuit : Circuit}
    (small : length < UInt32.size) (assembled : IsAssembled 1 (chainStatements length) circuit) :
    circuit.order = circuit.gates := by
  have gates := assembled.gates_eq
  rw [length_chainStatements] at gates
  have member : ∀ position < length, .ofIndex (1 + position) ∈ circuit.gates := by
    intro position inside
    rw [← Array.mem_toList_iff, gates]
    exact List.mem_map.mpr ⟨1 + position, List.mem_range'_1.mpr (by omega), rfl⟩
  refine order_eq_gates_of_reads assembled.isEvaluationOrder ?_
  rw [gates]
  refine List.isChain_iff_getElem.mpr fun position inside => ?_
  rw [List.length_map, List.length_range'] at inside
  simp only [List.getElem_map, List.getElem_range', Nat.one_mul]
  refine ⟨member (position + 1) inside, member position (by omega), ?_⟩
  have found := assembled.getElem?_gate (getElem?_chainStatements inside)
  rw [references, DeviceId.index_ofIndex_of_lt (by omega), found]
  simp [Device.references, Source.id, Nat.add_comm]

/-- The statements are their own renumbering if every gate keeps its number. -/
theorem isRenumbered_refl (statements : List Statement) :
    Statement.IsRenumbered (Equiv.refl Nat) statements statements := by
  have sameSource : Source.rename (Equiv.refl Nat) = id := by
    funext source
    cases source <;> rfl
  have same : Statement.rename (Equiv.refl Nat) = id := by
    funext statement
    rw [Statement.rename, sameSource, List.map_id]
    rfl
  refine ⟨?_, fun gate => ?_⟩
  · rw [same, List.map_id]
  · rw [same, Option.map_id]
    rfl

/-! ### Building the chain step by step -/

/-- Adds one more inverter, which reads the last device. -/
def extendChain (built : DeviceId × Circuit) : Except Misuse (DeviceId × Circuit) := do
  let (gate, placed) := built.2.addGate .not
  let connected ← placed.connect gate built.1
  return (gate, connected)

/-- Builds a chain of inverters one operation at a time. -/
def inverterChainStepwise (length : Nat) : Except Misuse Circuit :=
  if length = 0 then .error .emptyFamily
  else do
    let (last, wired) ← (List.range length).foldlM (fun built _ => extendChain built) empty.addInput
    let exposed ← exposeSink wired last
    ofFamily exposed.sort

theorem mayDrive_wired_chain {length : Nat} (small : length < UInt32.size) :
    MayDrive (wired 1 (chainStatements length)).devices (.ofIndex length) := by
  rw [wired_eq, mayDrive_arrangement, DeviceId.index_ofIndex_of_lt small, List.length_map,
    length_chainStatements]
  omega

theorem wired_chainStatements_succ (length : Nat) :
    wired 1 (chainStatements (length + 1)) =
      ((wired 1 (chainStatements length)).placeGate .not [.ofIndex length]).2 := by
  have source : (if length = 0 then Source.input 1 else .gate length).id 1 = .ofIndex length := by
    split
    · next zero => rw [zero]; rfl
    · rw [Source.id, Nat.add_sub_cancel_left]
  rw [chainStatements_succ, wired, List.foldl_concat, addStatement, List.map_singleton, source]
  rfl

theorem extendChain_wired {length : Nat} (small : length + 1 < UInt32.size) :
    extendChain (.ofIndex length, wired 1 (chainStatements length)) =
      .ok (.ofIndex (length + 1), wired 1 (chainStatements (length + 1))) := by
  have size : (wired 1 (chainStatements length)).devices.size = length + 1 := by
    rw [size_wired, length_chainStatements, Nat.add_comm]
  have gate : (wired 1 (chainStatements length)).nextId = .ofIndex (length + 1) := by
    rw [nextId, size]
  have connects := connect_placeGate (size ▸ small) (mayDrive_wired_chain (by omega)) .not []
  rw [wired_chainStatements_succ, ← gate]
  exact bind_eq_ok_iff.mpr ⟨_, connects, rfl⟩

/-- The gates that are built so far are those of a shorter chain, and the last device is the last of
them. -/
theorem foldlM_extendChain {length : Nat} (small : length < UInt32.size) :
    (List.range length).foldlM (fun built _ => extendChain built) empty.addInput =
      .ok (.ofIndex length, wired 1 (chainStatements length)) := by
  induction length with
  | zero => rfl
  | succ length inductionHypothesis =>
    rw [List.range_succ, List.foldlM_append, inductionHypothesis (by omega)]
    exact bind_eq_ok_iff.mpr ⟨_, rfl, bind_eq_ok_iff.mpr ⟨_, extendChain_wired small, rfl⟩⟩

/-- Building a chain step by step takes no step that is refused, and gives the chain. -/
theorem inverterChainStepwise_eq_ok {length : Nat} (positive : 0 < length)
    (room : length + 2 < UInt32.size) {circuit : Circuit}
    (assembles : assemble 1 (chainStatements length) = .ok circuit) :
    inverterChainStepwise length = .ok circuit := by
  have count := length_chainStatements length
  have small : 1 + (chainStatements length).length < UInt32.size := by omega
  have defined := areDefined_chainStatements length
  have size := size_wired 1 (chainStatements length)
  have fits : (wired 1 (chainStatements length)).devices.size + [DeviceId.ofIndex length].length <
      UInt32.size := by
    rw [size, List.length_singleton]
    omega
  have drives : MayDrive (wired 1 (chainStatements length)).devices (.ofIndex length) :=
    mayDrive_wired_chain (by omega)
  have sinks : (wired 1 (chainStatements length)).sinks = #[.ofIndex length] := by
    rw [sinks_wired small defined, unread_chainStatements positive]
    simp [gateId, Source.id]
  obtain ⟨_, sorted, sorts, rfl⟩ := (assemble_eq_ok_iff small defined).mp assembles
  have sortsExposed := sort_expose (reachable_wired small defined) fits
    (fun source listed => List.mem_singleton.mp listed ▸ drives) sorts
  have exposes : exposeSink (wired 1 (chainStatements length)) (.ofIndex length) =
      .ok ((wired 1 (chainStatements length)).expose #[.ofIndex length]) := by
    rw [exposeSink, addOutput_of_mayDrive (by omega) drives]
    rfl
  rw [inverterChainStepwise, if_neg (by omega), foldlM_extendChain (by omega), sinks]
  refine bind_eq_ok_iff.mpr ⟨_, rfl, bind_eq_ok_iff.mpr ⟨_, exposes, ?_⟩⟩
  rw [sortsExposed]
  rfl

end Circuit

/-! ### Chains in files -/

namespace Lcf

open Circuit

/-- A text that is written for a description gives the circuit that is assembled from it. -/
theorem load_description_text {description : Description} (counted : description.IsCounted)
    (defined : Statement.AreDefined description.inputs description.statements)
    (connected : ∀ statement ∈ description.statements, statement.sources ≠ []) :
    (load description.text).1 = assemble description.inputs description.statements := by
  have declared := counted.areDefined_iff.mp defined
  exact load_eq_assemble counted declared
    ((read?_description_text (isKept_of_declares counted declared)).mpr
      ⟨counted.statements_ne_nil, connected, rfl⟩)

/-- The description of a chain. -/
def chainDescription (length : Nat) : Description where
  inputs := 1
  gates := length
  statements := chainStatements length

/-- The description of a chain whose gates are declared from the last one to the first. -/
def reversedDescription (length : Nat) : Description where
  inputs := 1
  gates := length
  statements := (List.range length).map fun position =>
    { kind := .not, sources := [if position + 1 = length then .input 1 else .gate (position + 2)] }

theorem isCounted_chainDescription {length : Nat} (bounds : 0 < length ∧ length ≤ maxGates) :
    (chainDescription length).IsCounted where
  inputs := by
    show 1 ≤ 1 ∧ 1 ≤ maxInputs
    decide
  gates := bounds
  statements := length_chainStatements length

/-- Reversing some gates exchanges the numbers from both ends. -/
theorem renumber_revPerm {count gate : Nat} (positive : 1 ≤ gate) (inside : gate ≤ count) :
    Statement.renumber (Fin.revPerm : Equiv.Perm (Fin count)) gate = count + 1 - gate := by
  obtain ⟨position, rfl⟩ := Nat.exists_eq_add_of_le' positive
  have here := Statement.renumber_succ (Fin.revPerm : Equiv.Perm (Fin count)) ⟨position, inside⟩
  rw [here, Fin.revPerm_apply, Fin.val_rev]
  show count - (position + 1) + 1 = count + 1 - (position + 1)
  omega

/-- The gate at a position of the reversed chain reads the gate after it, and the last gate that is
declared reads the pin. -/
theorem getElem?_permute_chainDescription {length position : Nat} (inside : position < length) :
    ((chainDescription length).permute Fin.revPerm).statements[position]? =
      some { kind := .not
             sources := [if position + 1 = length then .input 1 else .gate (position + 2)] } := by
  have count : (chainDescription length).statements.length = length := length_chainStatements length
  have number : ∀ gate, 1 ≤ gate → gate ≤ length → Statement.renumbering
      (Fin.revPerm : Equiv.Perm (Fin (chainDescription length).statements.length)) gate =
        length + 1 - gate := by
    intro gate positive bounded
    refine (renumber_revPerm positive (count.symm ▸ bounded)).trans ?_
    rw [count]
  have moved := (Statement.isRenumbered_permute (chainDescription length).statements
    Fin.revPerm).numbered?_eq (length - position)
  -- The gate that is declared at this position is the one that counts from the other end.
  rw [number _ (by omega) (by omega),
    show length + 1 - (length - position) = position + 1 by omega] at moved
  refine moved.trans ?_
  by_cases last : position + 1 = length
  · have first : length - position = 1 := by omega
    rw [first, if_pos last]
    exact congrArg _ (numbered?_chainStatements_one (by omega))
  · obtain ⟨gate, next⟩ : ∃ gate, length - position = gate + 1 :=
      Nat.exists_eq_add_of_le' (by omega)
    have renamed := number gate (by omega) (by omega)
    rw [show length + 1 - gate = position + 2 by omega] at renamed
    rw [next, if_neg last]
    refine (congrArg _ (numbered?_chainStatements_succ (by omega) (by omega))).trans ?_
    exact congrArg (fun number => some (Statement.mk .not [.gate number])) renamed

/-- The last gate that is declared is the first one of the signal. -/
theorem permute_chainDescription (length : Nat) :
    (chainDescription length).permute Fin.revPerm = reversedDescription length := by
  refine congrArg (Description.mk 1 length) (List.ext_getElem? fun position => ?_)
  by_cases inside : position < length
  · refine (getElem?_permute_chainDescription inside).trans ?_
    simp [inside]
  · rw [List.getElem?_eq_none, List.getElem?_eq_none]
    · simpa using inside
    · simpa [Statement.permute, chainDescription, chainStatements] using inside

/-- Whatever the order in which its gates are declared, a chain is loaded. -/
theorem exists_load_permute_chain {length : Nat} (bounds : 0 < length ∧ length ≤ maxGates)
    (permutation : Equiv.Perm (Fin (chainDescription length).statements.length)) :
    ∃ circuit, (load ((chainDescription length).permute permutation).text).1 = .ok circuit ∧
      circuit.Inverts length := by
  have renumbered := Statement.isRenumbered_permute (chainDescription length).statements permutation
  have room : length + 2 < UInt32.size :=
    Nat.lt_of_le_of_lt (Nat.add_le_add_right bounds.2 2) (by decide)
  obtain ⟨circuit, assembles, inverts⟩ :=
    exists_assemble_of_isRenumbered bounds.1 room renumbered
  rw [load_description_text (isCounted_permute (isCounted_chainDescription bounds) permutation)
    (renumbered.areDefined (areDefined_chainStatements length))
    (renumbered.sources_ne_nil (sources_ne_nil_chainStatements length))]
  exact ⟨circuit, assembles, inverts⟩

end Lcf

/-! ### Main statement -/

namespace Circuit

/-- A chain that is small enough for a file is loaded from its own file, whatever its pin holds, and
a file that declares its gates in any other order gives a circuit with the same function and
depth. -/
structure SurvivesFiles (circuit : Circuit) (length : Nat) : Prop where
  load_write : ∀ value assigned, circuit.setInputs [value] = .ok assigned →
    (Lcf.load (Lcf.write assigned)).1 = .ok circuit
  load_reversed : ∃ reversed, (Lcf.load (Lcf.reversedDescription length).text).1 = .ok reversed ∧
    reversed.Inverts length
  load_permuted : ∀ permutation : Equiv.Perm (Fin (Lcf.describe circuit).statements.length),
    ∃ permuted, (Lcf.load ((Lcf.describe circuit).permute permutation).text).1 = .ok permuted ∧
      permuted.Inverts length

theorem survivesFiles_of_assemble {length : Nat} (bounds : 0 < length ∧ length ≤ maxGates)
    {circuit : Circuit} (assembles : assemble 1 (chainStatements length) = .ok circuit) :
    circuit.SurvivesFiles length := by
  have count := length_chainStatements length
  have limit : length ≤ 1000 := bounds.2
  have small : 1 + (chainStatements length).length < UInt32.size :=
    Nat.lt_of_le_of_lt (count.symm ▸ Nat.add_le_add_left limit 1) (by decide)
  have defined := areDefined_chainStatements length
  have described : Lcf.describe circuit = Lcf.chainDescription length := by
    rw [describe_of_assemble small defined assembles, count]
    rfl
  obtain ⟨wellFormed, bounded⟩ := wellFormed_assemble small defined (by
    rw [unread_chainStatements bounds.1, count, List.length_singleton]
    exact Nat.lt_of_le_of_lt (Nat.add_le_add_right (Nat.add_le_add_left limit 1) 1) (by decide))
    assembles
  refine ⟨fun value assigned assigns => ?_, ?_, ?_⟩
  · have width : [value].length = circuit.inputCount := (counts_of_assemble assembles).1.symm
    rw [setInputs_eq wellFormed bounded width] at assigns
    obtain rfl := Except.ok.inj assigns
    have same : Lcf.describe (circuit.assigned [value]) = Lcf.chainDescription length :=
      (Lcf.describe_withPins wellFormed bounded _).trans described
    rw [Lcf.write, same, Lcf.load_description_text (Lcf.isCounted_chainDescription bounds) defined
      (sources_ne_nil_chainStatements length)]
    exact assembles
  · rw [← Lcf.permute_chainDescription]
    exact Lcf.exists_load_permute_chain bounds _
  · rw [described]
    exact Lcf.exists_load_permute_chain bounds

/-- A chain of inverters can be built for every length but zero. Its gates are evaluated in the
order in which they were created, the output is the input pin, inverted if the length is odd, and
the depth is the length. -/
theorem inverterChain_spec {length : Nat} (positive : 0 < length)
    (room : length + 2 < UInt32.size) :
    ∃ circuit, inverterChain length = .ok circuit ∧ inverterChainStepwise length = .ok circuit ∧
      circuit.isSorted = true ∧ circuit.order = circuit.gates ∧
      circuit.gates.toList = (List.range' 1 length).map DeviceId.ofIndex ∧
      circuit.Inverts length ∧ (length ≤ 1000 → circuit.SurvivesFiles length) := by
  obtain ⟨circuit, assembles, inverts⟩ :=
    exists_assemble_of_isRenumbered positive room (isRenumbered_refl (chainStatements length))
  have count := length_chainStatements length
  have assembled := isAssembled_of_assemble (by omega) (areDefined_chainStatements length) assembles
  refine ⟨circuit, ?_, inverterChainStepwise_eq_ok positive room assembles, assembled.isSorted,
    order_eq_gates_of_isAssembled (by omega) assembled, ?_, inverts,
    fun bound => survivesFiles_of_assemble ⟨positive, bound⟩ assembles⟩
  · rw [inverterChain, if_neg (by omega), assembles]
    rfl
  · rw [assembled.gates_eq, count]

/-- A chain of three inverters has the opposite of its pin as output, and is loaded from a file that
declares the last gate first. -/
theorem inverterChain_three :
    ∃ circuit, inverterChain 3 = .ok circuit ∧ circuit.order = circuit.gates ∧
      (∃ assigned, circuit.setInputs [true] = .ok assigned ∧ assigned.outputValues = .ok [false]) ∧
      ∃ reversed, (Lcf.load "1\n3\n3 2.1 0\n3 3.1 0\n3 -1 0\n").1 = .ok reversed ∧
        reversed.Inverts 3 := by
  obtain ⟨circuit, built, _, _, order, _, inverts, survives⟩ :=
    inverterChain_spec (by decide : 0 < 3) (by decide)
  have text : (Lcf.reversedDescription 3).text = "1\n3\n3 2.1 0\n3 3.1 0\n3 -1 0\n" := by
    decide +kernel
  refine ⟨circuit, built, order, inverts.exists_outputValues true, ?_⟩
  rw [← text]
  exact (survives (by decide)).load_reversed

end Circuit

end Combinational
