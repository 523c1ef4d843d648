/-
This file proves that random circuits are assembled from statements whose sources come later.

A number drawn is the high half of a word times its bound, so it lies below the bound, and the
source that it selects is an input pin or a gate after the one that is drawn. What draws ensure is
stated for draws that succeed, and is passed on from draw to draw. Drawn statements form no loop,
therefore, and no gate reads the first one.
-/

import Combinational.Circuit.Random
import Combinational.Proofs.Numbering
import Combinational.Random.Uniform
import Mathlib.Data.List.Forall2

namespace Combinational

open Relation

namespace Random

/-! ### What draws ensure -/

/-- Every value drawn is good. -/
def Ensures {State Value : Type} (draw : StateT State Option Value) (good : Value → Prop) : Prop :=
  ∀ state value after, draw state = some (value, after) → good value

theorem ensures_pure {State Value : Type} {good : Value → Prop} {value : Value}
    (holds : good value) : Ensures (pure value : StateT State Option Value) good := by
  intro state other after drawn
  obtain rfl := congrArg Prod.fst (Option.some.inj drawn)
  exact holds

theorem ensures_trivial {State Value : Type} (draw : StateT State Option Value) :
    Ensures draw fun _ => True :=
  fun _ _ _ _ => trivial

theorem ensures_bind {State First Second : Type} {first : StateT State Option First}
    {next : First → StateT State Option Second} {firstGood : First → Prop}
    {good : Second → Prop} (ensured : Ensures first firstGood)
    (further : ∀ value, firstGood value → Ensures (next value) good) :
    Ensures (first >>= next) good := by
  intro state value after drawn
  obtain ⟨⟨middle, between⟩, drawnFirst, drawnNext⟩ := Option.bind_eq_some_iff.mp drawn
  exact further middle (ensured state middle between drawnFirst) between value after drawnNext

/-- Drawing for each item of a list gives as many values, each of them good for its item. -/
theorem ensures_mapM {State Item Value : Type} {draw : Item → StateT State Option Value}
    {good : Item → Value → Prop} {items : List Item}
    (ensured : ∀ item ∈ items, Ensures (draw item) (good item)) :
    Ensures (items.mapM draw) (List.Forall₂ good items) := by
  induction items with
  | nil =>
    rw [List.mapM_nil]
    exact ensures_pure .nil
  | cons item others inductionHypothesis =>
    obtain ⟨here, rest⟩ := List.forall_mem_cons.mp ensured
    rw [List.mapM_cons]
    refine ensures_bind here fun value valueGood => ?_
    refine ensures_bind (inductionHypothesis rest) fun values valuesGood => ?_
    exact ensures_pure (.cons valueGood valuesGood)

/-! ### Numbers below a bound -/

/-- The numbers that the dice give lie below their bounds. -/
def Dice.IsBounded {State : Type} (below : Dice State) : Prop :=
  ∀ size bound, 0 < bound → Ensures (below size bound) (· < bound)

namespace Xoshiro

theorem nextWord_lt (size : WordSize) (state : Xoshiro) :
    (state.nextWord size).1 < size.count := by
  cases size with
  | word32 =>
    rw [nextWord, UInt64.toNat_shiftRight, Nat.shiftRight_eq_div_pow]
    exact Nat.div_lt_of_lt_mul state.next.1.toNat_lt
  | word64 => exact state.next.1.toNat_lt

theorem drawWithin_lt {size : WordSize} {bound draws : Nat} (positive : 0 < bound) :
    Ensures (drawWithin size bound draws) (· < bound) := by
  induction draws with
  | zero =>
    intro state drawn after draw
    cases draw
  | succ draws inductionHypothesis =>
    intro state drawn after draw
    unfold drawWithin at draw
    simp only at draw
    split at draw
    · obtain rfl := congrArg Prod.fst (Option.some.inj draw)
      refine Nat.div_lt_of_lt_mul ?_
      exact Nat.mul_lt_mul_of_pos_right (nextWord_lt size state) positive
    · exact inductionHypothesis _ _ _ draw

theorem isBounded_below : Dice.IsBounded Xoshiro.below :=
  fun _ _ positive => drawWithin_lt positive

end Xoshiro

end Random

/-! ### Statements that read later gates -/

/-- A source is an input pin, or a gate after the one at a position. -/
def Source.IsAfter (inputs gates position : Nat) : Source → Prop
  | input number => 1 ≤ number ∧ number ≤ inputs
  | gate number => position + 2 ≤ number ∧ number ≤ gates

theorem Source.IsAfter.isDefined {inputs gates position : Nat} {source : Source}
    (after : source.IsAfter inputs gates position) : source.isDefined inputs gates = true := by
  cases source with
  | input number =>
    simp only [Source.isDefined, Bool.and_eq_true, decide_eq_true_eq]
    exact after
  | gate number => exact Source.isDefined_gate.mpr ⟨by have := after.1; omega, after.2⟩

namespace Statement

/-- The statement may be drawn for the gate at a position. -/
structure IsDrawn (inputs gates position : Nat) (statement : Statement) : Prop where
  /-- A Not gate has one source. -/
  single : statement.kind = .not → statement.sources.length = 1
  /-- Every gate has one to three sources. -/
  few : 1 ≤ statement.sources.length ∧ statement.sources.length ≤ 3
  /-- The sources are input pins and gates that come later. -/
  isAfter : ∀ source ∈ statement.sources, source.IsAfter inputs gates position

/-- Each statement may be drawn for its gate. -/
def AreDrawn (inputs : Nat) (statements : List Statement) : Prop :=
  ∀ (position : Nat) (statement : Statement), statements[position]? = some statement →
    statement.IsDrawn inputs statements.length position

namespace AreDrawn

variable {inputs : Nat} {statements : List Statement} (drawn : AreDrawn inputs statements)

include drawn

theorem areDefined : AreDefined inputs statements := by
  intro statement member source listed
  obtain ⟨position, given⟩ := List.mem_iff_getElem?.mp member
  exact ((drawn position statement given).isAfter source listed).isDefined

theorem sources_ne_nil : ∀ statement ∈ statements, statement.sources ≠ [] := by
  intro statement member
  obtain ⟨position, given⟩ := List.mem_iff_getElem?.mp member
  exact List.ne_nil_of_length_pos (drawn position statement given).few.1

theorem lt_of_reads {consumer source : Nat} (reads : Reads statements consumer source) :
    consumer < source := by
  obtain ⟨position, statement, given, rfl, listed⟩ := reads
  exact ((drawn position statement given).isAfter _ listed).1

/-- Numbers grow along every chain, so no chain comes back. -/
theorem isAcyclic : IsAcyclic statements := by
  intro number loop
  exact loopless_of_rank id (fun _ _ reads => drawn.lt_of_reads reads) number
    (transGen_swap.mpr loop)

/-- No gate reads the first one. -/
theorem head?_unread (nonempty : statements ≠ []) : (unread statements).head? = some 1 := by
  have free : statements.all (fun statement => .gate 1 ∉ statement.sources) = true := by
    rw [List.all_eq_true]
    intro statement member
    rw [decide_eq_true_eq]
    intro listed
    obtain ⟨position, given⟩ := List.mem_iff_getElem?.mp member
    have later := ((drawn position statement given).isAfter _ listed).1
    omega
  obtain ⟨count, length⟩ := Nat.exists_eq_succ_of_ne_zero (List.length_pos_iff.mpr nonempty).ne'
  rw [unread, List.head?_filter, length, List.range'_succ]
  exact List.find?_cons_of_pos free

end AreDrawn

end Statement

/-! ### Random statements -/

namespace Circuit

open Combinational.Random

section Draws

variable {State : Type} {below : Dice State} (bounded : below.IsBounded) {inputs gates : Nat}
  (pins : 0 < inputs)

include bounded

theorem ensures_drawSourceCount (kind : GateKind) :
    Ensures (drawSourceCount below kind) fun count =>
      (kind = .not → count = 1) ∧ 1 ≤ count ∧ count ≤ 3 := by
  cases kind with
  | not => exact ensures_pure ⟨fun _ => rfl, by decide, by decide⟩
  | and | or =>
    refine ensures_bind (bounded .word32 3 (by decide)) fun draw small => ?_
    exact ensures_pure ⟨GateKind.noConfusion, Nat.le_add_left .., small⟩

include pins

theorem ensures_drawSource {position : Nat} (inside : position < gates) :
    Ensures (drawSource below inputs gates position) (·.IsAfter inputs gates position) := by
  unfold drawSource
  refine ensures_bind (bounded .word64 _ (by omega)) fun draw small => ensures_pure ?_
  split
  · next pin => exact ⟨Nat.le_add_left .., pin⟩
  · exact ⟨by omega, by omega⟩

theorem ensures_drawStatement {position : Nat} (inside : position < gates) (kind : GateKind) :
    Ensures (drawStatement below inputs gates position kind)
      (·.IsDrawn inputs gates position) := by
  unfold drawStatement
  refine ensures_bind (ensures_drawSourceCount bounded kind) fun count ⟨single, few⟩ => ?_
  refine ensures_bind (ensures_mapM fun _ _ => ensures_drawSource bounded pins inside) ?_
  intro sources drawn
  have length := drawn.length_eq
  rw [List.length_range] at length
  rw [length] at single few
  refine ensures_pure ⟨single, few, fun source listed => ?_⟩
  obtain ⟨position, there, rfl⟩ := List.getElem_of_mem listed
  exact (List.forall₂_iff_get.mp drawn).2 position (drawn.length_eq ▸ there) there

theorem ensures_drawStatements :
    Ensures (drawStatements below inputs gates) fun statements =>
      statements.length = gates ∧ Statement.AreDrawn inputs statements := by
  unfold drawStatements
  refine ensures_bind (ensures_mapM fun _ _ => ensures_trivial _) fun kinds counted => ?_
  have count := counted.length_eq
  rw [List.length_range] at count
  subst count
  have drawn : Ensures
      (kinds.zipIdx.mapM fun placed => drawStatement below inputs kinds.length placed.2 placed.1)
      (List.Forall₂ (fun placed statement =>
        Statement.IsDrawn inputs kinds.length placed.2 statement) kinds.zipIdx) :=
    ensures_mapM fun placed member =>
      ensures_drawStatement bounded pins (List.snd_lt_of_mem_zipIdx member) placed.1
  intro state statements after draw
  have each := drawn state statements after draw
  have length := each.length_eq
  rw [List.length_zipIdx] at length
  refine ⟨length.symm, fun position statement given => ?_⟩
  obtain ⟨inside, rfl⟩ := List.getElem?_eq_some_iff.mp given
  have here := (List.forall₂_iff_get.mp each).2 position (by simp [length, inside]) inside
  simp only [List.get_eq_getElem, List.getElem_zipIdx, Nat.zero_add] at here
  rwa [length] at here

omit pins in
/-- A drawn circuit is assembled from as many statements as gates were asked for. -/
theorem exists_statements_of_drawn {state : State} {circuit : Circuit}
    (draws : drawn below state inputs gates = .ok circuit) :
    ∃ statements, statements.length = gates ∧ Statement.AreDefined inputs statements ∧
      assemble inputs statements = .ok circuit := by
  unfold drawn at draws
  split at draws
  · cases draws
  · next wanted =>
    split at draws
    · next statements after draw =>
      obtain ⟨length, areDrawn⟩ :=
        ensures_drawStatements bounded (by omega) state statements after draw
      refine ⟨statements, length, areDrawn.areDefined, ?_⟩
      cases assembles : assemble inputs statements with
      | ok assembled =>
        rw [assembles] at draws
        exact congrArg Except.ok (Except.ok.inj draws)
      | error error =>
        rw [assembles] at draws
        cases draws
    · cases draws

end Draws

end Circuit

end Combinational
