/-
This file draws circuits step by step, and proves that no step is misused.

The input pins and the gates are added first, with a kind drawn for each gate. Then each gate draws
how many sources it has, and each source is drawn, looked up and connected. An output pin is added
for each gate that no gate reads, the gates are sorted, and the circuit is checked. Each step uses
the operations on circuits, which refuse whatever they are not meant for, and lists are read at
positions that they need not have.

The steps draw the same numbers as the statements, in the same order. A run of the steps therefore
realizes the draws of the statements: what is drawn determines the circuit, and nothing is refused.
-/

import Combinational.Proofs.Draws
import Combinational.Proofs.Loading

namespace Combinational

namespace Random

variable {State Value Outcome : Type}

/-! ### Draws that may be misused -/

/-- Steps that draw numbers, and use operations that may be misused. -/
abbrev Trial (State Outcome : Type) := ExceptT Misuse (StateT State Option) Outcome

/-- A step that draws no number. -/
def perform (outcome : Except Misuse Outcome) : Trial State Outcome :=
  ExceptT.mk (pure outcome)

/-- A number below a bound. No number lies below zero. -/
def choose (below : Dice State) (size : WordSize) (bound : Nat) : Trial State Nat :=
  if bound = 0 then throw .missingEntry else ExceptT.lift (below size bound)

/-- Some steps draw what is drawn elsewhere, and misuse nothing: what they give is built from the
value that is drawn. -/
def Realizes (steps : Trial State Outcome) (draw : StateT State Option Value)
    (build : Value → Outcome) : Prop :=
  ∀ state, steps.run state = (draw state).map fun drawn => (.ok (build drawn.1), drawn.2)

theorem perform_ok_bind {First : Type} (value : First) (next : First → Trial State Outcome) :
    perform (.ok value) >>= next = next value := rfl

theorem realizes_bind {First Drawn : Type} {first : Trial State First}
    {next : First → Trial State Outcome} {drawFirst : StateT State Option Drawn}
    {drawNext : Drawn → StateT State Option Value} {buildFirst : Drawn → First}
    {build : Value → Outcome} {good : Drawn → Prop} (realized : Realizes first drawFirst buildFirst)
    (ensured : Ensures drawFirst good)
    (further : ∀ drawn, good drawn → Realizes (next (buildFirst drawn)) (drawNext drawn) build) :
    Realizes (first >>= next) (drawFirst >>= drawNext) build := by
  intro state
  have opened : (first >>= next).run state = (first.run state).bind fun outcome =>
      ExceptT.bindCont next outcome.1 outcome.2 := rfl
  have openedDraw : (drawFirst >>= drawNext) state =
      (drawFirst state).bind fun drawn => drawNext drawn.1 drawn.2 := rfl
  rw [opened, openedDraw, realized state]
  cases draws : drawFirst state with
  | none => rfl
  | some drawn => exact further drawn.1 (ensured state drawn.1 drawn.2 draws) drawn.2

/-- What is drawn may be changed before it is built from. -/
theorem Realizes.map {Drawn : Type} {steps : Trial State Outcome}
    {draw : StateT State Option Drawn} {change : Drawn → Value} {build : Value → Outcome}
    (realized : Realizes steps draw fun drawn => build (change drawn)) :
    Realizes steps (draw >>= fun drawn => pure (change drawn)) build := by
  intro state
  rw [realized state]
  show _ = ((draw state).bind fun drawn => some (change drawn.1, drawn.2)).map _
  cases draw state <;> rfl

/-- Choosing realizes a throw of the dice, if there is a choice. -/
theorem realizes_choose_bind {below : Dice State} (bounded : below.IsBounded) {size : WordSize}
    {bound : Nat} (positive : 0 < bound) {next : Nat → Trial State Outcome}
    {drawNext : Nat → StateT State Option Value} {build : Value → Outcome}
    (further : ∀ draw, draw < bound → Realizes (next draw) (drawNext draw) build) :
    Realizes (choose below size bound >>= next) (below size bound >>= drawNext) build := by
  have realized : Realizes (choose below size bound) (below size bound) id := by
    rw [choose, if_neg (Nat.ne_of_gt positive)]
    intro state
    show (below size bound state).bind _ = _
    cases below size bound state <;> rfl
  exact realizes_bind realized (bounded size bound positive) further

/-- A loop of steps realizes draws for each item of a list. What it gives is built from the values
drawn so far and the items that are left, and each step replaces the next item by its value. -/
theorem realizes_foldlM {Item : Type} {step : Outcome → Item → Trial State Outcome}
    {draw : Item → StateT State Option Value} (build : List Value → List Item → Outcome)
    {items : List Item}
    (each : ∀ done item rest, items = done ++ item :: rest →
      ∀ values : List Value, values.length = done.length →
        Realizes (step (build values (item :: rest)) item) (draw item) fun value =>
          build (values ++ [value]) rest) :
    Realizes (items.foldlM step (build [] items)) (items.mapM draw) fun values =>
      build values [] := by
  suffices further : ∀ (rest done : List Item), items = done ++ rest →
      ∀ values : List Value, values.length = done.length →
        Realizes (rest.foldlM step (build values rest)) (rest.mapM draw) fun drawn =>
          build (values ++ drawn) [] from
    further items [] rfl [] rfl
  intro rest
  induction rest with
  | nil =>
    intro done _ values _ state
    show _ = some (Except.ok (build (values ++ []) []), state)
    rw [List.append_nil]
    rfl
  | cons item rest inductionHypothesis =>
    intro done whole values length
    rw [List.foldlM_cons, List.mapM_cons]
    refine realizes_bind (each done item rest whole values length) (ensures_trivial _) ?_
    refine fun value _ => Realizes.map ?_
    have others := inductionHypothesis (done ++ [item]) (by rw [whole, List.append_assoc]; rfl)
      (values ++ [value]) (by rw [List.length_append, List.length_append, length]; rfl)
    simp only [List.append_assoc, List.singleton_append] at others
    exact others

end Random

/-! ### The steps -/

namespace Circuit

open Combinational.Random

section Steps

variable {State : Type} (below : Dice State) (inputs gates : Nat)

/-- The kind at a position of the list of kinds. -/
def kindAt (position : Nat) : Except Misuse GateKind :=
  match [GateKind.and, .or, .not][position]? with
  | some kind => .ok kind
  | none => .error .missingEntry

/-- Adds an unconnected gate of a kind that is drawn. -/
def addDrawn (circuit : Circuit) : Trial State Circuit := do
  let draw ← choose below .word64 3
  let kind ← perform (kindAt draw)
  return (circuit.addGate kind).2

/-- Draws how many sources a device has. -/
def chooseCount (device : Device) : Trial State Nat :=
  match device.kind? with
  | some .not => pure 1
  | _ => do
    let draw ← choose below .word32 3
    return draw + 1

/-- Draws an input pin or a gate after the one at a position, and connects that one to it. -/
def connectDrawn (position : Nat) (gate : DeviceId) (circuit : Circuit) :
    Trial State Circuit := do
  let draw ← choose below .word64 (inputs + gates - position - 1)
  let source ← perform <|
    if draw < inputs then circuit.input draw else circuit.gate (position + 1 + draw - inputs)
  perform (circuit.connect gate source)

/-- Draws the sources of the gate at a position, and connects it to them. -/
def connectGate (circuit : Circuit) (position : Nat) : Trial State Circuit := do
  let gate ← perform (circuit.gate position)
  let device ← perform (circuit.device gate)
  let count ← chooseCount below device
  (List.range count).foldlM
    (fun current _ => connectDrawn below inputs gates position gate current) circuit

/-- Draws the input pins and the gates of a circuit. -/
def grow : Trial State Circuit := do
  let bare ← (List.range gates).foldlM (fun circuit _ => addDrawn below circuit)
    (empty.addInputs inputs)
  (List.range gates).foldlM (connectGate below inputs gates) bare

/-- Adds an output pin that forwards a gate. -/
def exposeSink (circuit : Circuit) (gate : DeviceId) : Except Misuse Circuit := do
  let _ ← (circuit.addOutput gate).1
  return (circuit.addOutput gate).2

/-- Adds the output pins of a circuit whose gates are connected, sorts it and checks it. -/
def complete (wired : Circuit) : Except Misuse Circuit := do
  let exposed ← wired.sinks.toList.foldlM exposeSink wired
  let sorted ← ofFamily exposed.sort
  sorted.check
  return sorted

/-- Draws a circuit step by step. There must be an input pin and a gate. -/
def drawnStepwise : Trial State Circuit :=
  if inputs = 0 ∨ gates = 0 then
    throw .emptyFamily
  else do
    let wired ← grow below inputs gates
    perform (complete wired)

end Steps

/-! ### Connecting drawn sources -/

/-- The gate of a kind, not connected yet. -/
def unwired (kind : GateKind) : GateKind × List DeviceId :=
  (kind, [])

section Grow

variable {State : Type} {below : Dice State} (bounded : below.IsBounded)

include bounded

theorem realizes_addDrawn (circuit : Circuit) :
    Realizes (addDrawn below circuit) (drawKind below) fun kind => (circuit.addGate kind).2 := by
  refine realizes_choose_bind bounded (by decide) fun draw small => ?_
  match draw, small with
  | 0, _ => exact fun _ => rfl
  | 1, _ => exact fun _ => rfl
  | 2, _ => exact fun _ => rfl

theorem realizes_chooseCount (kind : GateKind) (references : List DeviceId) :
    Realizes (chooseCount below (.gate kind references)) (drawSourceCount below kind) id := by
  cases kind with
  | not => exact fun _ => rfl
  | and | or =>
    exact realizes_choose_bind bounded (by decide) fun draw _ _ => rfl

variable {inputs gates : Nat}

/-- The steps draw the kinds of all the gates first. -/
theorem realizes_addDrawn_range :
    Realizes
      ((List.range gates).foldlM (fun circuit _ => addDrawn below circuit) (empty.addInputs inputs))
      ((List.range gates).mapM fun _ => drawKind below)
      fun kinds => arrangement inputs (kinds.map unwired) := by
  rw [empty_addInputs]
  refine realizes_foldlM (fun kinds _ => arrangement inputs (kinds.map unwired))
    fun _ _ _ _ kinds _ => ?_
  have added := realizes_addDrawn bounded (arrangement inputs (kinds.map unwired))
  simp only [addGate, placeGate_arrangement] at added
  simp only [List.map_append, List.map_cons, List.map_nil]
  exact added

variable (pins : 0 < inputs) (small : inputs + gates ≤ UInt32.size)

include pins small

/-- The device that is looked up is the one that the drawn source names. -/
theorem realizes_connectDrawn (before after : List (GateKind × List DeviceId))
    (kind : GateKind) (references : List DeviceId)
    (length : (before ++ (kind, references) :: after).length = gates) :
    Realizes
      (connectDrawn below inputs gates before.length (.ofIndex (inputs + before.length))
        (arrangement inputs (before ++ (kind, references) :: after)))
      (drawSource below inputs gates before.length)
      fun source => arrangement inputs (before ++ (kind, references ++ [source.id inputs]) :: after)
    := by
  have inside : before.length < gates := by
    rw [← length, List.length_append, List.length_cons]
    omega
  refine realizes_choose_bind bounded (by omega) fun draw drawn => ?_
  have connects : ∀ place < inputs + gates,
      (arrangement inputs (before ++ (kind, references) :: after)).connect
        (.ofIndex (inputs + before.length)) (.ofIndex place) =
      .ok (arrangement inputs (before ++ (kind, references ++ [.ofIndex place]) :: after)) := by
    intro place bound
    refine connect_arrangement (by omega) ?_
    rw [DeviceId.index_ofIndex_of_lt (by omega), length]
    exact bound
  by_cases pin : draw < inputs
  · rw [if_pos pin, if_pos pin, input_arrangement pin, perform_ok_bind, connects draw (by omega)]
    exact fun _ => rfl
  · rw [if_neg pin, if_neg pin, gate_arrangement inputs (by omega), perform_ok_bind,
      connects _ (by omega)]
    have named : Source.id inputs (.gate (before.length + 2 + (draw - inputs))) =
        .ofIndex (inputs + (before.length + 1 + draw - inputs)) := by
      rw [Source.id]
      congr 1
      omega
    rw [← named]
    exact fun _ => rfl

theorem realizes_connectGate (before after : List (GateKind × List DeviceId)) (kind : GateKind)
    (length : (before ++ unwired kind :: after).length = gates) :
    Realizes
      (connectGate below inputs gates (arrangement inputs (before ++ unwired kind :: after))
        before.length)
      (drawStatement below inputs gates before.length kind)
      fun statement => arrangement inputs (before ++ wire inputs statement :: after) := by
  have inside : before.length < (before ++ unwired kind :: after).length := by simp
  have bound : before.length < gates := length ▸ inside
  have found : (arrangement inputs (before ++ unwired kind :: after)).device
      (.ofIndex (inputs + before.length)) = .ok (.gate kind []) := by
    rw [device_eq_ok_iff, DeviceId.index_ofIndex_of_lt (by omega), getElem?_arrangement_gate]
    simp [unwired]
  rw [connectGate, gate_arrangement inputs inside, perform_ok_bind, found, perform_ok_bind,
    drawStatement]
  refine realizes_bind (realizes_chooseCount bounded kind []) (ensures_trivial _) fun count _ => ?_
  refine Realizes.map ?_
  refine realizes_foldlM
    (fun sources _ => arrangement inputs (before ++ wire inputs { kind, sources } :: after))
    fun _ _ _ _ sources _ => ?_
  have connected := realizes_connectDrawn bounded pins small before after kind
    (sources.map (Source.id inputs)) (by simpa using length)
  simp only [wire, List.map_append, List.map_cons, List.map_nil]
  exact connected

/-- The steps connect the gates in order, and no gate is connected before its turn. -/
theorem realizes_connectGate_range {kinds : List GateKind} (length : kinds.length = gates) :
    Realizes
      ((List.range gates).foldlM (connectGate below inputs gates)
        (arrangement inputs (kinds.map unwired)))
      (kinds.zipIdx.mapM fun (kind, position) => drawStatement below inputs gates position kind)
      (wired inputs) := by
  have positions : List.range gates = kinds.zipIdx.map Prod.snd := by
    rw [List.zipIdx_map_snd, length, List.range_eq_range']
  -- The gates before the next position are connected, and those from there on are not.
  let partly (statements : List Statement) (rest : List (GateKind × Nat)) : Circuit :=
    arrangement inputs (statements.map (wire inputs) ++ (rest.map Prod.fst).map unwired)
  have first : arrangement inputs (kinds.map unwired) = partly [] kinds.zipIdx := by
    simp only [partly, List.zipIdx_map_fst, List.map_nil, List.nil_append]
  have last : wired inputs = fun statements => partly statements [] := by
    funext statements
    simp only [partly, wired_eq, List.map_nil, List.append_nil]
  rw [positions, List.foldlM_map, first, last]
  refine realizes_foldlM partly fun done placed rest whole statements drawn => ?_
  have listed : kinds.zipIdx[done.length]? = some placed := by
    rw [whole]
    simp
  have position : placed.2 = (statements.map (wire inputs)).length := by
    rw [List.getElem?_zipIdx] at listed
    obtain ⟨kind, _, rfl⟩ := Option.map_eq_some_iff.mp listed
    rw [List.length_map, drawn]
    exact Nat.zero_add _
  have counted := congrArg List.length whole
  rw [List.length_zipIdx, length, List.length_append, List.length_cons] at counted
  have connected := realizes_connectGate bounded pins small (statements.map (wire inputs))
    ((rest.map Prod.fst).map unwired) placed.1 (by simp [drawn, counted])
  rw [← position] at connected
  simp only [partly, List.map_append, List.map_cons, List.map_nil, List.append_assoc]
  exact connected

/-- The steps draw the gates of the statements, and connect them as the statements say. -/
theorem realizes_grow :
    Realizes (grow below inputs gates) (drawStatements below inputs gates) (wired inputs) := by
  have counted : Ensures ((List.range gates).mapM fun _ => drawKind below) (·.length = gates) := by
    intro state kinds after draws
    have same := ensures_mapM (fun _ _ => ensures_trivial _) state kinds after draws
    rw [← same.length_eq, List.length_range]
  exact realizes_bind (realizes_addDrawn_range bounded) counted fun kinds length =>
    realizes_connectGate_range bounded pins small length

end Grow

/-! ### Adding the output pins -/

/-- Sorting finds the same order whether output pins are added before or after. -/
theorem sort_expose {circuit sorted : Circuit} (reachable : circuit.Reachable)
    {sources : List DeviceId} (small : circuit.devices.size + sources.length < UInt32.size)
    (drives : ∀ source ∈ sources, MayDrive circuit.devices source)
    (sorts : circuit.sort = .ok sorted) :
    (circuit.expose sources.toArray).sort = .ok (sorted.expose sources.toArray) := by
  have bounded : circuit.devices.size < UInt32.size :=
    Nat.lt_of_le_of_lt (Nat.le_add_right _ _) small
  have wellFormed := reachable.wellFormed bounded
  have exposedSmall : (circuit.expose sources.toArray).devices.size < UInt32.size := by
    rw [size_expose]
    exact small
  have exposedWellFormed := (reachable_expose reachable small.le drives).wellFormed exposedSmall
  have same : SameGates circuit (circuit.expose sources.toArray) := by
    refine ⟨by rw [expose_eq], fun gate member => ?_⟩
    exact references_expose (wellFormed.index_lt_of_mem_gates bounded.le member) sources
  have lockstep : (circuit.expose sources.toArray).traversal.order = circuit.traversal.order :=
    same.order_traversal_eq wellFormed bounded.le exposedWellFormed exposedSmall.le
  obtain ⟨complete, rfl⟩ := sort_eq_ok_iff.mp sorts
  refine sort_eq_ok_iff.mpr ⟨by rw [lockstep, same.gateCount_eq]; exact complete, ?_⟩
  rw [lockstep, expose_eq, expose_eq]

/-- The completed circuit is the assembled one. -/
theorem complete_wired {inputs : Nat} {statements : List Statement} {circuit : Circuit}
    (room : inputs + statements.length + (Statement.unread statements).length < UInt32.size)
    (defined : Statement.AreDefined inputs statements)
    (connected : ∀ statement ∈ statements, statement.sources ≠ [])
    (assembles : assemble inputs statements = .ok circuit) :
    complete (wired inputs statements) = .ok circuit := by
  have small : inputs + statements.length < UInt32.size :=
    Nat.lt_of_le_of_lt (Nat.le_add_right _ _) room
  obtain ⟨fits, drives⟩ := sinks_of_wired small defined room
  have exposes :
      (wired inputs statements).sinks.toList.foldlM exposeSink (wired inputs statements) =
        .ok ((wired inputs statements).expose (wired inputs statements).sinks.toList.toArray) := by
    refine foldlM_addOutput (fun current sink id extended added => ?_) fits.le drives
    rw [exposeSink, added]
    rfl
  obtain ⟨wellFormed, bounded⟩ := wellFormed_assemble small defined room assembles
  have accepted := Lcf.check_of_isAssembled (isAssembled_of_assemble small defined assembles)
    wellFormed bounded connected
  obtain ⟨_, sorted, sorts, rfl⟩ := (assemble_eq_ok_iff small defined).mp assembles
  have sortsToo := sort_expose (reachable_wired small defined) fits drives sorts
  rw [Array.toArray_toList] at sortsToo exposes
  rw [complete, exposes]
  show ofFamily (sort _) >>= _ = _
  rw [sortsToo]
  show (check _ >>= fun _ => _) = _
  rw [accepted]
  rfl

/-- A run of the steps ends with the circuit of the drawn statements. -/
theorem drawnStepwise_eq_ok {State : Type} {below : Dice State} (bounded : below.IsBounded)
    {inputs gates : Nat} (pins : 0 < inputs) (some : 0 < gates) {state after : State}
    {statements : List Statement} {circuit : Circuit}
    (draws : drawStatements below inputs gates state = .some (statements, after))
    (room : inputs + gates + (Statement.unread statements).length < UInt32.size)
    (assembles : assemble inputs statements = .ok circuit) :
    (drawnStepwise below inputs gates).run state = .some (.ok circuit, after) := by
  obtain ⟨length, drawn⟩ := ensures_drawStatements bounded pins state statements after draws
  have small : inputs + gates ≤ UInt32.size := by omega
  have grown := realizes_grow bounded pins small state
  rw [draws] at grown
  rw [← length] at room
  have completed := complete_wired room drawn.areDefined drawn.sources_ne_nil assembles
  rw [drawnStepwise, if_neg (by omega)]
  show ((grow below inputs gates).run state).bind _ = _
  rw [grown]
  show Option.some (complete (wired inputs statements), after) = _
  rw [completed]

end Circuit

end Combinational
