/-
This file proves that every random draw comes to an end.

The word zero is accepted for each bound. The state zero gives it, and so does a state that every
other one reaches within a period. The draws that a number may take are more than that, so there is
always a number. With dice that always give a number, a random circuit can be drawn from every
state.
-/

import Combinational.Proofs.Generation
import Combinational.Proofs.Period

namespace Combinational

namespace Random

/-! ### Numbers below a bound -/

namespace Xoshiro

theorem snd_nextWord (size : WordSize) (state : Xoshiro) :
    (state.nextWord size).2 = state.advance := by
  cases size <;> rfl

/-- The next word of either size is zero. -/
def IsSilent (state : Xoshiro) : Prop :=
  state.next.1 = 0

theorem IsSilent.nextWord_eq {state : Xoshiro} (silent : state.IsSilent) (size : WordSize) :
    state.nextWord size = (0, state.advance) := by
  unfold IsSilent at silent
  cases size <;>
  · unfold nextWord
    rw [silent]
    rfl

/-- Every state reaches a silent one within a period. -/
theorem exists_isSilent (state : Xoshiro) :
    ∃ steps ≤ period, IsSilent (advance^[steps] state) := by
  by_cases isZero : state = 0
  · have silent : (0 : Xoshiro).next.1 = 0 := by decide
    exact ⟨0, Nat.zero_le _, isZero ▸ silent⟩
  · obtain ⟨steps, early, reaches⟩ := exists_iterate_eq_first isZero
    have silent : first.next.1 = 0 := by decide
    exact ⟨steps, early, reaches ▸ silent⟩

/-- A draw ends at the latest with the word of a silent state. -/
theorem exists_drawWithin (size : WordSize) (bound : Nat) {draws steps : Nat} {state : Xoshiro}
    (early : steps < draws) (silent : IsSilent (advance^[steps] state)) :
    ∃ drawn after, drawWithin size bound draws state = some (drawn, after) := by
  induction steps generalizing draws state with
  | zero =>
    obtain ⟨others, rfl⟩ := Nat.exists_eq_add_one.mpr early
    have here : state.IsSilent := silent
    unfold drawWithin
    simp only [here.nextWord_eq, Nat.zero_mul, Nat.zero_mod, Nat.zero_le, if_true]
    exact ⟨_, _, rfl⟩
  | succ steps inductionHypothesis =>
    obtain ⟨others, rfl⟩ := Nat.exists_eq_add_one.mpr (Nat.zero_lt_of_lt early)
    unfold drawWithin
    simp only
    split
    · exact ⟨_, _, rfl⟩
    · rw [snd_nextWord]
      exact inductionHypothesis (Nat.lt_of_succ_lt_succ early) silent

end Xoshiro

/-! ### Draws that end -/

/-- The draw gives a value in every state. -/
def Ends {State Value : Type} (draw : StateT State Option Value) : Prop :=
  ∀ state, ∃ value after, draw state = some (value, after)

theorem ends_pure {State Value : Type} (value : Value) :
    Ends (pure value : StateT State Option Value) :=
  fun state => ⟨value, state, rfl⟩

/-- The second draw must end after the values that the first one ensures. -/
theorem ends_bind_of_ensures {State First Second : Type} {first : StateT State Option First}
    {next : First → StateT State Option Second} {good : First → Prop} (ends : Ends first)
    (ensured : Ensures first good) (further : ∀ value, good value → Ends (next value)) :
    Ends (first >>= next) := by
  intro state
  obtain ⟨middle, between, drawn⟩ := ends state
  obtain ⟨value, after, drawnNext⟩ :=
    further middle (ensured state middle between drawn) between
  exact ⟨value, after, Option.bind_eq_some_iff.mpr ⟨_, drawn, drawnNext⟩⟩

theorem ends_bind {State First Second : Type} {first : StateT State Option First}
    {next : First → StateT State Option Second} (ends : Ends first)
    (further : ∀ value, Ends (next value)) : Ends (first >>= next) :=
  ends_bind_of_ensures ends (ensures_trivial first) fun value _ => further value

theorem ends_mapM {State Item Value : Type} {draw : Item → StateT State Option Value}
    {items : List Item} (ends : ∀ item ∈ items, Ends (draw item)) : Ends (items.mapM draw) := by
  induction items with
  | nil =>
    rw [List.mapM_nil]
    exact ends_pure []
  | cons item others inductionHypothesis =>
    obtain ⟨here, rest⟩ := List.forall_mem_cons.mp ends
    rw [List.mapM_cons]
    exact ends_bind here fun _ => ends_bind (inductionHypothesis rest) fun _ => ends_pure _

/-- The dice give a number for every bound, and it lies below the bound. -/
structure Dice.IsReliable {State : Type} (below : Dice State) : Prop where
  isBounded : below.IsBounded
  ends : ∀ size bound, 0 < bound → Ends (below size bound)

theorem Xoshiro.isReliable_below : Dice.IsReliable Xoshiro.below where
  isBounded := isBounded_below
  ends size bound _ state := by
    obtain ⟨steps, early, silent⟩ := exists_isSilent state
    exact exists_drawWithin size bound (Nat.lt_of_le_pred (Pattern.count_pos 256) early) silent

end Random

namespace Circuit

open Combinational.Random

/-! ### Random statements -/

section Draws

variable {State : Type} {below : Dice State} (reliable : below.IsReliable) {inputs gates : Nat}

include reliable

theorem ends_drawKind : Ends (drawKind below) := by
  refine ends_bind (reliable.ends .word64 3 (by decide)) fun draw => ?_
  split <;> exact ends_pure _

/-- There is always a source to draw, since there is an input pin. -/
theorem ends_drawStatement (pins : 0 < inputs) {position : Nat} (inside : position < gates)
    (kind : GateKind) : Ends (drawStatement below inputs gates position kind) := by
  have count : Ends (drawSourceCount below kind) := by
    cases kind with
    | not => exact ends_pure 1
    | and | or => exact ends_bind (reliable.ends .word32 3 (by decide)) fun _ => ends_pure _
  have source : Ends (drawSource below inputs gates position) :=
    ends_bind (reliable.ends .word64 _ (by omega)) fun _ => ends_pure _
  exact ends_bind count fun _ => ends_bind (ends_mapM fun _ _ => source) fun _ => ends_pure _

theorem ends_drawStatements (pins : 0 < inputs) : Ends (drawStatements below inputs gates) := by
  refine ends_bind_of_ensures (ends_mapM fun _ _ => ends_drawKind reliable)
    (ensures_mapM fun _ _ => ensures_trivial _) fun kinds counted => ?_
  have length := counted.length_eq
  rw [List.length_range] at length
  refine ends_mapM fun placed member => ?_
  exact ends_drawStatement reliable pins (length ▸ List.snd_lt_of_mem_zipIdx member) placed.1

end Draws

/-- For every seed there is a random circuit with some input pins and gates. -/
theorem exists_random {generator : Generator} (reliable : generator.below.IsReliable)
    {inputs gates : Nat} (pins : 0 < inputs) (some : 0 < gates)
    (small : inputs + gates < UInt32.size) (seed : UInt64) :
    ∃ circuit, random generator inputs gates seed = .ok circuit := by
  obtain ⟨statements, after, draws⟩ :=
    ends_drawStatements reliable pins (generator.ofSeed seed)
  obtain ⟨circuit, _, drawsCircuit⟩ :=
    exists_assemble_of_drawStatements reliable.isBounded pins some draws small
  exact ⟨circuit, drawsCircuit⟩

end Circuit

end Combinational
