/-
This file states what an enumeration of assignments gives, whatever it is asked for.

An enumeration is asked for its next assignment, or for one further on, and may be copied at any
time. What it gives depends only on how many assignments it has passed, those that it skipped and
those that it passed before it was copied included. Still to come are the binary forms of the
numbers from there on, of which there are as many as it reports.

Several enumerations that result from copying are kept in a list. No call concerns any of them but
the one that is called.
-/

import Combinational.Assignments
import Combinational.Proofs.Patterns
import Mathlib.Data.List.Nodup

namespace Combinational

namespace Assignments

/-! ### Asking for one assignment after the other -/

/-- The assignment after some others, found by asking for each of them in turn. Nothing more is
asked for once there is none left. -/
def nthByNext (assignments : Assignments) : Nat → Option (List Bool) × Assignments
  | 0 =>
    match assignments.next? with
    | some (assignment, rest) => (some assignment, rest)
    | none => (none, assignments)
  | count + 1 =>
    match assignments.next? with
    | some (_, rest) => rest.nthByNext count
    | none => (none, assignments)

/-- The enumeration gives some assignments, in this order, and then no more. -/
inductive Yields : Assignments → List (List Bool) → Prop
  /-- Nothing is left. -/
  | done {assignments : Assignments} (finished : assignments.next? = none) : Yields assignments []
  /-- One assignment, and those after it. -/
  | more {assignments rest : Assignments} {assignment : List Bool} {others : List (List Bool)}
    (next : assignments.next? = some (assignment, rest)) (yields : Yields rest others) :
    Yields assignments (assignment :: others)

theorem next_eq_stop_of_exhausted {assignments : Assignments}
    (bounded : assignments.next ≤ assignments.stop) (finished : assignments.next? = none) :
    assignments.next = assignments.stop := by
  unfold next? at finished
  split at finished
  · cases finished
  · next ended => exact Nat.le_antisymm bounded (Nat.le_of_not_lt ended)

/-- An enumeration with nothing left has nothing further on either, and stays as it is. -/
theorem nth_of_exhausted {assignments : Assignments}
    (bounded : assignments.next ≤ assignments.stop) (finished : assignments.next? = none)
    (count : Nat) : assignments.nth count = (none, assignments) := by
  have ended := next_eq_stop_of_exhausted bounded finished
  have skipped : assignments.skip count = assignments := by
    rw [skip, Nat.min_eq_right (ended ▸ Nat.le_add_right ..)]
    exact congrArg (fun next => { assignments with next }) ended.symm
  rw [nth, skipped, finished]

theorem toList_of_next?_eq_none {assignments : Assignments} (finished : assignments.next? = none) :
    assignments.toList = [] := by
  unfold next? at finished
  split at finished
  · cases finished
  · next stopped =>
    have none : assignments.remaining = 0 := Nat.sub_eq_zero_of_le (Nat.le_of_not_lt stopped)
    rw [toList, none, List.range'_zero, List.map_nil]

/-- The assignments still to come are given, and no others. -/
theorem yields_iff {assignments : Assignments} {items : List (List Bool)} :
    assignments.Yields items ↔ items = assignments.toList := by
  constructor
  · intro yields
    induction yields with
    | done finished => exact (toList_of_next?_eq_none finished).symm
    | more next _ inductionHypothesis => rw [toList_of_next? next, inductionHypothesis]
  · rintro rfl
    -- Every answer lowers the number of assignments that are left.
    induction left : assignments.remaining generalizing assignments with
    | zero =>
      cases next : assignments.next? with
      | none => exact toList_of_next?_eq_none next ▸ .done next
      | some answer => exact absurd (remaining_of_next? next) (by omega)
    | succ left inductionHypothesis =>
      cases next : assignments.next? with
      | none => exact toList_of_next?_eq_none next ▸ .done next
      | some answer =>
        have fewer := remaining_of_next? next
        rw [toList_of_next? next]
        exact .more next (inductionHypothesis (by omega))

/-! ### Enumerations that have passed some assignments -/

/-- The enumeration that has passed some assignments. -/
def after (width passed : Nat) : Assignments where
  width := width
  next := passed
  stop := Pattern.count width

theorem all_eq_ok {width : Nat} (bounds : 1 ≤ width ∧ width ≤ 63) :
    all width = .ok (after width 0) := by
  have positive : width ≠ 0 := by omega
  have small : ¬ 64 ≤ width := by omega
  rw [all, if_neg positive, if_neg small]
  rfl

variable {width passed : Nat}

theorem next?_after_of_lt (inside : passed < Pattern.count width) :
    (after width passed).next? =
      some (Pattern.bigEndian width passed, after width (passed + 1)) :=
  if_pos inside

theorem next?_after_of_le (ended : Pattern.count width ≤ passed) :
    (after width passed).next? = none :=
  if_neg (Nat.not_lt_of_le ended)

theorem nth_after_of_lt {count : Nat} (inside : passed + count < Pattern.count width) :
    (after width passed).nth count =
      (some (Pattern.bigEndian width (passed + count)), after width (passed + count + 1)) := by
  have skipped : (after width passed).skip count = after width (passed + count) :=
    congrArg (after width) (Nat.min_eq_left (Nat.le_of_lt inside))
  rw [nth, skipped, next?_after_of_lt inside]

theorem nth_after_of_le {count : Nat} (ended : Pattern.count width ≤ passed + count) :
    (after width passed).nth count = (none, after width (Pattern.count width)) := by
  have skipped : (after width passed).skip count = after width (Pattern.count width) :=
    congrArg (after width) (Nat.min_eq_right ended)
  rw [nth, skipped, next?_after_of_le (Nat.le_refl _)]

/-- Skipping is no different from asking for each assignment in turn. -/
theorem nth_eq_nthByNext (bounded : passed ≤ Pattern.count width) (count : Nat) :
    (after width passed).nth count = (after width passed).nthByNext count := by
  induction count generalizing passed with
  | zero =>
    rcases Nat.lt_or_ge passed (Pattern.count width) with inside | ended
    · rw [nth_after_of_lt inside, nthByNext, next?_after_of_lt inside]
      rfl
    · rw [nth_after_of_le ended, nthByNext, next?_after_of_le ended, Nat.le_antisymm bounded ended]
  | succ count inductionHypothesis =>
    rcases Nat.lt_or_ge passed (Pattern.count width) with inside | ended
    · have shifted : passed + 1 + count = passed + (count + 1) := by omega
      rw [nthByNext, next?_after_of_lt inside]
      simp only [← inductionHypothesis inside]
      rcases Nat.lt_or_ge (passed + (count + 1)) (Pattern.count width) with within | beyond
      · rw [nth_after_of_lt within, nth_after_of_lt (shifted ▸ within), shifted]
      · rw [nth_after_of_le beyond, nth_after_of_le (shifted ▸ beyond)]
    · rw [nth_after_of_le (Nat.le_add_right_of_le ended), nthByNext, next?_after_of_le ended,
        Nat.le_antisymm bounded ended]

/-- An enumeration that has passed some assignments gives the binary forms of the numbers from there
on, whichever way it is asked, and reports how many they are. -/
structure HasPassed (width passed : Nat) (assignments : Assignments) : Prop where
  passed_le : passed ≤ Pattern.count width
  yields_iff : ∀ items, assignments.Yields items ↔
    items = (List.range' passed (Pattern.count width - passed)).map (Pattern.bigEndian width)
  /-- Each assignment still to come has a value per pin, and they denote consecutive numbers. -/
  denotes : ∀ items, assignments.Yields items → (∀ item ∈ items, item.length = width) ∧
    items.map Pattern.number = List.range' passed (Pattern.count width - passed)
  remaining_eq : ∀ items, assignments.Yields items → assignments.remaining = items.length
  /-- The numbers fit into words, and the remaining number is not cut off at zero. -/
  bounds : assignments.next ≤ assignments.stop ∧ assignments.stop < UInt64.size
  next?_eq : assignments.next?.map Prod.fst =
    if passed < Pattern.count width then some (Pattern.bigEndian width passed) else none
  nth_eq : ∀ count, assignments.nth count = assignments.nthByNext count ∧
    (assignments.nth count).1 =
      if passed + count < Pattern.count width then
        some (Pattern.bigEndian width (passed + count))
      else none

theorem map_number_range' (bounded : passed ≤ Pattern.count width) :
    ((List.range' passed (Pattern.count width - passed)).map (Pattern.bigEndian width)).map
      Pattern.number = List.range' passed (Pattern.count width - passed) := by
  rw [List.map_map]
  refine (List.map_congr_left fun number member => ?_).trans (List.map_id _)
  rw [List.mem_range'_1] at member
  exact Pattern.number_bigEndian (by omega)

theorem hasPassed_after (small : width ≤ 63) (bounded : passed ≤ Pattern.count width) :
    HasPassed width passed (after width passed) where
  passed_le := bounded
  yields_iff _ := yields_iff
  denotes items yields := by
    rw [yields_iff] at yields
    subst yields
    refine ⟨fun item member => ?_, map_number_range' bounded⟩
    obtain ⟨number, _, rfl⟩ := List.mem_map.mp member
    exact Pattern.length_bigEndian width number
  remaining_eq items yields := by
    rw [yields_iff.mp yields, length_toList]
  bounds := ⟨bounded, Nat.pow_lt_pow_right Nat.one_lt_two (Nat.lt_succ_of_le small)⟩
  next?_eq := by
    split
    · next inside => rw [next?_after_of_lt inside, Option.map_some]
    · next ended => rw [next?_after_of_le (Nat.le_of_not_lt ended), Option.map_none]
  nth_eq count := by
    refine ⟨nth_eq_nthByNext bounded count, ?_⟩
    split
    · next inside => rw [nth_after_of_lt inside]
    · next ended => rw [nth_after_of_le (Nat.le_of_not_lt ended)]

/-! ### Calls -/

/-- A call of one of several enumerations, which are numbered from zero. -/
inductive Call
  /-- Asks for the next assignment. -/
  | next (called : Nat)
  /-- Asks for the assignment after some others. -/
  | nth (called count : Nat)
  /-- Copies the enumeration. The copy comes last. -/
  | clone (called : Nat)

namespace Call

/-- The enumerations after a call. An enumeration that has nothing left stays as it is. -/
def perform (enumerations : List Assignments) : Call → List Assignments
  | next called => enumerations.modify called fun enumeration =>
    match enumeration.next? with
    | some (_, rest) => rest
    | none => enumeration
  | nth called count => enumerations.modify called fun enumeration => (enumeration.nth count).2
  | clone called => enumerations ++ enumerations[called]?.toList

/-- The enumerations after some calls. -/
def performAll (enumerations : List Assignments) (calls : List Call) : List Assignments :=
  calls.foldl perform enumerations

/-- How many assignments each enumeration has passed after a call, if there are so many in all. -/
def tally (total : Nat) (passed : List Nat) : Call → List Nat
  | next called => passed.modify called fun count => min (count + 1) total
  | nth called skipped => passed.modify called fun count => min (count + skipped + 1) total
  | clone called => passed ++ passed[called]?.toList

/-- How many assignments each enumeration has passed after some calls. -/
def tallyAll (total : Nat) (passed : List Nat) (calls : List Call) : List Nat :=
  calls.foldl (tally total) passed

/-- The enumeration that a call asks for an assignment, if it asks for one. -/
def asked? : Call → Option Nat
  | next called | nth called _ => some called
  | clone _ => none

/-- Changing an entry of a list of values is changing the item that it is the value of. -/
theorem map_modify {Item Value : Type} {value : Item → Value} {change : Item → Item}
    {changed : Value → Value} {items : List Item}
    (commutes : ∀ item ∈ items, changed (value item) = value (change item)) (position : Nat) :
    (items.map value).modify position changed = (items.modify position change).map value := by
  induction items generalizing position with
  | nil => simp
  | cons item items inductionHypothesis =>
    obtain ⟨first, others⟩ := List.forall_mem_cons.mp commutes
    cases position with
    | zero => simp [first]
    | succ position => simp [inductionHypothesis others]

theorem forall_mem_modify {Item : Type} (Holds : Item → Prop) {change : Item → Item}
    (changed : ∀ item, Holds (change item)) {items : List Item} (holds : ∀ item ∈ items, Holds item)
    (position : Nat) : ∀ item ∈ items.modify position change, Holds item := by
  intro item member
  obtain ⟨other, found⟩ := List.mem_iff_getElem?.mp member
  rw [List.getElem?_modify] at found
  obtain ⟨original, listed, rfl⟩ := Option.map_eq_some_iff.mp found
  split
  · exact changed original
  · exact holds original (List.mem_of_getElem? listed)

section Tally

variable {width : Nat} {passed : List Nat}
  (bounded : ∀ count ∈ passed, count ≤ Pattern.count width)

include bounded

/-- A call leads from enumerations that have passed some assignments to enumerations that have
passed as many as the call makes them pass. -/
theorem perform_after (call : Call) :
    call.perform (passed.map (after width)) =
      (call.tally (Pattern.count width) passed).map (after width) := by
  cases call with
  | next called =>
    refine map_modify (fun count member => ?_) called
    rcases Nat.lt_or_ge count (Pattern.count width) with inside | ended
    · rw [next?_after_of_lt inside, Nat.min_eq_left (Nat.succ_le_of_lt inside)]
    · rw [next?_after_of_le ended, Nat.min_eq_right (Nat.le_succ_of_le ended),
        Nat.le_antisymm (bounded count member) ended]
  | nth called skipped =>
    refine map_modify (fun count _ => ?_) called
    rcases Nat.lt_or_ge (count + skipped) (Pattern.count width) with inside | ended
    · rw [nth_after_of_lt inside, Nat.min_eq_left (Nat.succ_le_of_lt inside)]
    · rw [nth_after_of_le ended, Nat.min_eq_right (Nat.le_succ_of_le ended)]
  | clone called =>
    simp only [perform, tally, List.map_append, List.getElem?_map]
    cases passed[called]? <;> rfl

theorem tally_le (call : Call) :
    ∀ count ∈ call.tally (Pattern.count width) passed, count ≤ Pattern.count width := by
  cases call with
  | next called =>
    exact forall_mem_modify (· ≤ Pattern.count width) (fun _ => Nat.min_le_right ..) bounded called
  | nth called skipped =>
    exact forall_mem_modify (· ≤ Pattern.count width) (fun _ => Nat.min_le_right ..) bounded called
  | clone called =>
    intro count member
    rcases List.mem_append.mp member with kept | copied
    · exact bounded count kept
    · exact bounded count (List.mem_of_getElem? (Option.mem_toList.mp copied))

theorem performAll_after (calls : List Call) :
    performAll (passed.map (after width)) calls =
        (tallyAll (Pattern.count width) passed calls).map (after width) ∧
      ∀ count ∈ tallyAll (Pattern.count width) passed calls, count ≤ Pattern.count width := by
  induction calls generalizing passed with
  | nil => exact ⟨rfl, bounded⟩
  | cons call calls inductionHypothesis =>
    have further := inductionHypothesis (tally_le bounded call)
    rw [← perform_after bounded call] at further
    exact further

end Tally

/-! ### Enumerations that calls leave alone -/

section Unchanged

variable {enumerations : List Assignments} {position : Nat} {enumeration : Assignments}

/-- A call changes an enumeration only by asking it for an assignment that it still has. -/
theorem getElem?_perform (found : enumerations[position]? = some enumeration)
    (bounded : enumeration.next ≤ enumeration.stop) {call : Call}
    (exhausted : call.asked? = some position → enumeration.next? = none) :
    (call.perform enumerations)[position]? = some enumeration := by
  cases call with
  | next called =>
    rw [perform, List.getElem?_modify, found, Option.map_eq_map, Option.map_some]
    split
    · next asked => rw [exhausted (congrArg some asked)]
    · rfl
  | nth called count =>
    rw [perform, List.getElem?_modify, found, Option.map_eq_map, Option.map_some]
    split
    · next asked => rw [nth_of_exhausted bounded (exhausted (congrArg some asked))]
    · rfl
  | clone called =>
    obtain ⟨inside, _⟩ := List.getElem?_eq_some_iff.mp found
    rw [perform, List.getElem?_append_left inside, found]

theorem getElem?_performAll (found : enumerations[position]? = some enumeration)
    (bounded : enumeration.next ≤ enumeration.stop) {calls : List Call}
    (exhausted : ∀ call ∈ calls, call.asked? = some position → enumeration.next? = none) :
    (performAll enumerations calls)[position]? = some enumeration := by
  induction calls generalizing enumerations with
  | nil => exact found
  | cons call calls inductionHypothesis =>
    obtain ⟨first, others⟩ := List.forall_mem_cons.mp exhausted
    exact inductionHypothesis (getElem?_perform found bounded first) others

end Unchanged

end Call

/-! ### Main statement -/

theorem generateAssignments_eq_ok {width : Nat} (bounds : 1 ≤ width ∧ width ≤ 63) :
    generateAssignments width = .ok (after width 0).toList := by
  rw [generateAssignments, all_eq_ok bounds]
  rfl

/-- The assignments of some pins are as many as there are patterns, and distinct. -/
theorem length_and_nodup_toList_after (width : Nat) :
    (after width 0).toList.length = Pattern.count width ∧ (after width 0).toList.Nodup := by
  refine ⟨length_toList _, List.Nodup.of_map Pattern.number ?_⟩
  have numbers : (after width 0).toList.map Pattern.number = List.range' 0 (Pattern.count width) :=
    map_number_range' (Nat.zero_le _)
  rw [numbers]
  exact List.nodup_range'

/-- The enumerations that result from calls of a new enumeration have passed as many assignments as
the calls made them pass, up to the number of all assignments, and give what is left. Calls that ask
other enumerations do not change them, nor do any calls once they have nothing left, and a copy
starts where its original is. The new enumeration gives all the assignments, which are distinct.
There must be a pin, and fewer than 64. -/
theorem enumeration_spec (width : Nat) :
    (width = 0 → all width = .error .noInput) ∧
    (64 ≤ width → all width = .error .tooManyInputs) ∧
    (1 ≤ width ∧ width ≤ 63 → ∃ new items, all width = .ok new ∧
      generateAssignments width = .ok items ∧ new.Yields items ∧
      items.length = Pattern.count width ∧ items.Nodup ∧
      ∀ calls, ∃ enumerations passed, Call.performAll [new] calls = enumerations ∧
        Call.tallyAll (Pattern.count width) [0] calls = passed ∧
        enumerations.length = passed.length ∧
        ∀ (position : Nat) (enumeration : Assignments),
          enumerations[position]? = some enumeration →
          (∃ count, passed[position]? = some count ∧ enumeration.HasPassed width count) ∧
          (∀ later, (∀ call ∈ later, call.asked? = some position → enumeration.next? = none) →
            (Call.performAll enumerations later)[position]? = some enumeration) ∧
          (Call.clone position).perform enumerations = enumerations ++ [enumeration]) := by
  refine ⟨?_, fun large => ?_, fun bounds => ?_⟩
  · rintro rfl
    rfl
  · have positive : width ≠ 0 := by omega
    rw [all, if_neg positive, if_pos large]
  obtain ⟨length, distinct⟩ := length_and_nodup_toList_after width
  refine ⟨after width 0, _, all_eq_ok bounds, generateAssignments_eq_ok bounds, yields_iff.mpr rfl,
    length, distinct, fun calls => ?_⟩
  have start : ∀ count ∈ [0], count ≤ Pattern.count width := by simp
  obtain ⟨results, bounded⟩ := Call.performAll_after start calls
  refine ⟨_, _, results, rfl, List.length_map .., fun position enumeration found => ?_⟩
  rw [List.getElem?_map] at found
  obtain ⟨count, counted, rfl⟩ := Option.map_eq_some_iff.mp found
  have within := bounded count (List.mem_of_getElem? counted)
  have listed : ((Call.tallyAll (Pattern.count width) [0] calls).map (after width))[position]? =
      some (after width count) := by rw [List.getElem?_map, counted, Option.map_some]
  refine ⟨⟨count, counted, hasPassed_after bounds.2 within⟩,
    fun later unasked => Call.getElem?_performAll listed within unasked, ?_⟩
  rw [Call.perform, listed, Option.toList_some]

/-- A copy made after one call goes on by itself while the original is asked far beyond its end. -/
theorem enumeration_of_three_pins :
    let calls : List Call := [.next 0, .clone 0, .nth 0 20, .next 0, .nth 1 2]
    ∃ new first second, all 3 = .ok new ∧ Call.performAll [new] calls = [first, second] ∧
      first.HasPassed 3 8 ∧ second.HasPassed 3 4 ∧
      second.Yields [[true, false, false], [true, false, true], [true, true, false],
        [true, true, true]] := by
  intro calls
  obtain ⟨new, _, starts, _, _, _, _, passes⟩ := (enumeration_spec 3).2.2 (by decide)
  obtain ⟨enumerations, passed, performs, counts, lengths, each⟩ := passes calls
  have tally : passed = [8, 4] := counts.symm
  subst tally
  obtain ⟨first, second, rfl⟩ := List.length_eq_two.mp lengths
  obtain ⟨⟨_, firstCounted, firstPassed⟩, _⟩ := each 0 first rfl
  obtain ⟨⟨_, secondCounted, secondPassed⟩, _⟩ := each 1 second rfl
  obtain rfl := Option.some.inj firstCounted
  obtain rfl := Option.some.inj secondCounted
  exact ⟨new, first, second, starts, performs, firstPassed, secondPassed,
    (secondPassed.yields_iff _).mpr rfl⟩

end Assignments

end Combinational
