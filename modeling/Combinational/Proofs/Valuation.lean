/-
This file describes the values of a circuit by the equations of its devices.

A valuation settles a device if it gives the device the value that the device computes from the
values of its references. Where every device comes after its references, exactly one valuation
settles them all: the value of each device follows from those before it.

Evaluation in any table agrees with that valuation as soon as the table holds the values of the
references, and it needs no other entries.
-/

import Combinational.Circuit.Evaluation
import Combinational.Proofs.Sorting

namespace Combinational

namespace Device

/-- The value of the device, given the values of all the devices. A device that has no reference
to forward counts as reading a false one. -/
def output (valuation : DeviceId → Bool) : Device → Bool
  | inputPin held => held
  | outputPin references => references.head?.any valuation
  | gate .not references => !references.head?.any valuation
  | gate .and references => references.all valuation
  | gate .or references => references.any valuation

/-- Whether the device has the references that its kind needs. -/
def IsConnected : Device → Prop
  | outputPin references | gate .not references => references ≠ []
  | _ => True

theorem output_congr {first second : DeviceId → Bool} {device : Device}
    (agree : ∀ reference ∈ device.references, first reference = second reference) :
    device.output first = device.output second := by
  have forwarded : ∀ references : List DeviceId,
      (∀ reference ∈ references, first reference = second reference) →
      references.head?.any first = references.head?.any second := by
    intro references agree
    cases references with
    | nil => rfl
    | cons source _ => exact agree source List.mem_cons_self
  match device with
  | inputPin held => rfl
  | outputPin references => exact forwarded references agree
  | gate .not references => exact congrArg (!·) (forwarded references agree)
  | gate .and references =>
    show references.all first = references.all second
    rw [Bool.eq_iff_iff, List.all_eq_true, List.all_eq_true]
    exact forall₂_congr fun reference member => by rw [agree reference member]
  | gate .or references =>
    show references.any first = references.any second
    rw [Bool.eq_iff_iff, List.any_eq_true, List.any_eq_true]
    exact exists_congr fun reference => and_congr_right fun member => by
      rw [agree reference member]

theorem allM_eq_ok {Failure : Type} {read : DeviceId → Except Failure Bool}
    {valuation : DeviceId → Bool} {references : List DeviceId}
    (reads : ∀ reference ∈ references, read reference = .ok (valuation reference)) :
    references.allM read = .ok (references.all valuation) := by
  induction references with
  | nil => rfl
  | cons first others inductionHypothesis =>
    have rest := inductionHypothesis fun reference member =>
      reads reference (List.mem_cons_of_mem _ member)
    rw [List.allM, reads first List.mem_cons_self, List.all_cons]
    cases valuation first with
    | false => rfl
    | true => exact rest

theorem anyM_eq_ok {Failure : Type} {read : DeviceId → Except Failure Bool}
    {valuation : DeviceId → Bool} {references : List DeviceId}
    (reads : ∀ reference ∈ references, read reference = .ok (valuation reference)) :
    references.anyM read = .ok (references.any valuation) := by
  induction references with
  | nil => rfl
  | cons first others inductionHypothesis =>
    have rest := inductionHypothesis fun reference member =>
      reads reference (List.mem_cons_of_mem _ member)
    rw [List.anyM, reads first List.mem_cons_self, List.any_cons]
    cases valuation first with
    | true => rfl
    | false => exact rest

/-- Evaluation computes the value from those of the references, once they can be read. -/
theorem evaluate_eq_output {read : DeviceId → Except Misuse Bool} {valuation : DeviceId → Bool}
    {device : Device} (connected : device.IsConnected)
    (reads : ∀ reference ∈ device.references, read reference = .ok (valuation reference)) :
    device.evaluate read = .ok (device.output valuation) := by
  match device with
  | inputPin held => rfl
  | outputPin [] | gate .not [] => exact absurd rfl connected
  | outputPin (source :: _) => exact reads source List.mem_cons_self
  | gate .not (source :: _) =>
    rw [evaluate, reads source List.mem_cons_self]
    rfl
  | gate .and references => exact allM_eq_ok reads
  | gate .or references => exact anyM_eq_ok reads

end Device

namespace Circuit

/-! ### Devices after their references -/

/-- Some devices follow others, each of them new and after everything that it references. -/
def Follows (circuit : Circuit) : (done : List DeviceId) → List DeviceId → Prop
  | _, [] => True
  | done, id :: rest =>
    id ∉ done ∧ (∀ reference ∈ circuit.references id, reference ∈ done) ∧
      Follows circuit (done ++ [id]) rest

theorem follows_append {circuit : Circuit} {done first second : List DeviceId} :
    circuit.Follows done (first ++ second) ↔
      circuit.Follows done first ∧ circuit.Follows (done ++ first) second := by
  induction first generalizing done with
  | nil => simp [Follows]
  | cons id first inductionHypothesis =>
    simp only [List.cons_append, Follows, inductionHypothesis, List.append_assoc,
      List.nil_append, and_assoc]

/-- Distinct new devices follow others if each one references only what is before it. -/
theorem follows_of_nodup {circuit : Circuit} {done rest : List DeviceId} (distinct : rest.Nodup)
    (new : ∀ id ∈ rest, id ∉ done)
    (after : ∀ earlier id later, rest = earlier ++ id :: later →
      ∀ reference ∈ circuit.references id, reference ∈ done ++ earlier) :
    circuit.Follows done rest := by
  induction rest generalizing done with
  | nil => trivial
  | cons id rest inductionHypothesis =>
    obtain ⟨notAgain, distinctRest⟩ := List.nodup_cons.mp distinct
    refine ⟨new id List.mem_cons_self, fun reference member => ?_, ?_⟩
    · simpa using after [] id rest rfl reference member
    · refine inductionHypothesis distinctRest (fun other member => ?_) ?_
      · rw [List.mem_append, List.mem_singleton, not_or]
        exact ⟨new other (List.mem_cons_of_mem id member), fun equal => notAgain (equal ▸ member)⟩
      · intro earlier other later split reference member
        have found := after (id :: earlier) other later (by rw [split]; rfl) reference member
        rwa [List.append_assoc, List.singleton_append]

/-- What a device has as soon as its references have it, all devices have that follow others that
have it. -/
theorem forall_of_follows (Holds : DeviceId → Prop) {circuit : Circuit} {done rest : List DeviceId}
    (follows : circuit.Follows done rest) (start : ∀ id ∈ done, Holds id)
    (passes : ∀ id ∈ rest, (∀ reference ∈ circuit.references id, Holds reference) → Holds id) :
    ∀ id ∈ rest, Holds id := by
  induction rest generalizing done with
  | nil => exact fun id member => absurd member List.not_mem_nil
  | cons id rest inductionHypothesis =>
    obtain ⟨_, after, restFollows⟩ := follows
    have here : Holds id := passes id List.mem_cons_self fun reference referenced =>
      start reference (after reference referenced)
    rw [List.forall_mem_cons]
    refine ⟨here, inductionHypothesis restFollows (fun other member => ?_) fun other member =>
      passes other (List.mem_cons_of_mem id member)⟩
    rcases List.mem_append.mp member with old | new
    · exact start other old
    · exact List.mem_singleton.mp new ▸ here

/-- A fold over devices that follow others enters each of them, if it can enter a device into a
state that has the references of the device. -/
theorem exists_foldlM_of_follows {Failure State : Type} (Valid : State → Prop)
    (Entered : State → DeviceId → Prop) {circuit : Circuit}
    {step : State → DeviceId → Except Failure State} {done rest : List DeviceId}
    (follows : circuit.Follows done rest)
    (enters : ∀ state id, Valid state → id ∈ rest →
      (∀ reference ∈ circuit.references id, Entered state reference) →
      ∃ next, step state id = .ok next ∧ Valid next ∧ Entered next id ∧
        ∀ other, other ≠ id → Entered state other → Entered next other)
    {state : State} (valid : Valid state) (entered : ∀ id ∈ done, Entered state id) :
    ∃ final, rest.foldlM step state = .ok final ∧ ∀ id ∈ done ++ rest, Entered final id := by
  induction rest generalizing done state with
  | nil => exact ⟨state, rfl, by simpa using entered⟩
  | cons id rest inductionHypothesis =>
    obtain ⟨new, after, restFollows⟩ := follows
    obtain ⟨next, steps, nextValid, here, kept⟩ := enters state id valid List.mem_cons_self
      fun reference member => entered reference (after reference member)
    have enteredNext : ∀ other ∈ done ++ [id], Entered next other := by
      intro other member
      rcases List.mem_append.mp member with old | same
      · exact kept other (fun equal => new (equal ▸ old)) (entered other old)
      · exact List.mem_singleton.mp same ▸ here
    obtain ⟨final, folds, all⟩ := inductionHypothesis restFollows
      (fun state other valid member => enters state other valid (List.mem_cons_of_mem id member))
      nextValid enteredNext
    refine ⟨final, ?_, by rwa [List.append_assoc] at all⟩
    rw [List.foldlM_cons, steps]
    exact folds

/-- What is computed for a device from what was computed for its references extends to devices
that follow others. -/
theorem exists_computed {Value : Type} {circuit : Circuit}
    {compute : DeviceId → (DeviceId → Value) → Value}
    (reading : ∀ (id : DeviceId) (first second : DeviceId → Value),
      (∀ reference ∈ circuit.references id, first reference = second reference) →
        compute id first = compute id second)
    {done rest : List DeviceId} (follows : circuit.Follows done rest) (start : DeviceId → Value) :
    ∃ extended, (∀ id ∈ done, extended id = start id) ∧
      ∀ id ∈ rest, extended id = compute id extended := by
  induction rest generalizing done start with
  | nil => exact ⟨start, fun _ _ => rfl, fun id member => by cases member⟩
  | cons id rest inductionHypothesis =>
    obtain ⟨new, after, restFollows⟩ := follows
    obtain ⟨extended, kept, computed⟩ := inductionHypothesis restFollows
      (Function.update start id (compute id start))
    have old : ∀ other ∈ done, extended other = start other := fun other member => by
      have different : other ≠ id := fun equal => new (equal ▸ member)
      rw [kept other (List.mem_append_left _ member), Function.update_of_ne different]
    refine ⟨extended, old, fun other member => ?_⟩
    rcases List.mem_cons.mp member with rfl | later
    · rw [kept other (List.mem_append_right _ List.mem_cons_self), Function.update_self]
      exact reading other start extended fun reference referenced =>
        (old reference (after reference referenced)).symm
    · exact computed other later

/-! ### The valuation that settles all devices -/

/-- The valuation gives the device its value. -/
def Settles (circuit : Circuit) (valuation : DeviceId → Bool) (id : DeviceId) : Prop :=
  ∃ device, circuit.devices[id.index]? = some device ∧ valuation id = device.output valuation

/-- Two valuations that settle the devices agree on them. -/
theorem eq_of_settles {circuit : Circuit} {first second : DeviceId → Bool}
    {done rest : List DeviceId} (follows : circuit.Follows done rest)
    (agree : ∀ id ∈ done, first id = second id)
    (firstSettles : ∀ id ∈ rest, circuit.Settles first id)
    (secondSettles : ∀ id ∈ rest, circuit.Settles second id) :
    ∀ id ∈ rest, first id = second id := by
  let agreed (id : DeviceId) : Prop := first id = second id
  refine forall_of_follows agreed follows agree fun id member sources => ?_
  obtain ⟨device, found, firstValue⟩ := firstSettles id member
  obtain ⟨sameDevice, sameFound, secondValue⟩ := secondSettles id member
  obtain rfl : device = sameDevice := Option.some.inj (found.symm.trans sameFound)
  rw [references_of_getElem? found] at sources
  show first id = second id
  rw [firstValue, secondValue]
  exact Device.output_congr sources

/-- A valuation of the first devices extends to the ones that follow. -/
theorem exists_settles {circuit : Circuit} {done rest : List DeviceId}
    (follows : circuit.Follows done rest)
    (existing : ∀ id ∈ rest, ∃ device, circuit.devices[id.index]? = some device)
    (valuation : DeviceId → Bool) :
    ∃ extended, (∀ id ∈ done, extended id = valuation id) ∧
      ∀ id ∈ rest, circuit.Settles extended id := by
  let compute (id : DeviceId) (valuation : DeviceId → Bool) : Bool :=
    circuit.devices[id.index]?.any (Device.output valuation)
  have reading : ∀ (id : DeviceId) (first second : DeviceId → Bool),
      (∀ reference ∈ circuit.references id, first reference = second reference) →
        compute id first = compute id second := by
    intro id first second agree
    cases found : circuit.devices[id.index]? with
    | none => simp only [compute, found, Option.any_none]
    | some device =>
      rw [references_of_getElem? found] at agree
      simp only [compute, found, Option.any_some]
      exact Device.output_congr agree
  obtain ⟨extended, kept, computed⟩ := exists_computed reading follows valuation
  refine ⟨extended, kept, fun id member => ?_⟩
  obtain ⟨device, found⟩ := existing id member
  refine ⟨device, found, ?_⟩
  rw [computed id member]
  simp only [compute, found, Option.any_some]

end Circuit

end Combinational
