/-
This file proves which references the evaluation of a device asks for.

Evaluation asks for the values of the used references in order. An output pin and a Not gate use one
reference. An And gate stops at the first false value and an Or gate at the first true one: such a
value decides the answer alone, so the answer is that of the function of all the used references,
and values that were not asked for matter neither to it nor to the questions.
-/

import Combinational.Proofs.Valuation

namespace Combinational

namespace Device

/-! ### Questions -/

/-- Answers a question about a reference, and notes it after the earlier ones. -/
def ask (valuation : DeviceId → Bool) (reference : DeviceId) :
    StateT (List DeviceId) (Except Misuse) Bool :=
  fun asked => .ok (valuation reference, asked ++ [reference])

/-- The value of a device, and the references that its evaluation asks for. -/
def consult (device : Device) (valuation : DeviceId → Bool) :
    Except Misuse (Bool × List DeviceId) :=
  (device.evaluate (ask valuation)).run []

/-- Whether a reference with some value decides the answer of the device alone. -/
def controls : Device → Bool → Bool
  | gate .and _, value => !value
  | gate .or _, value => value
  | inputPin _, _ | outputPin _, _ | gate .not _, _ => false

/-- The function of the device, of the values of the references that it uses. -/
def function : Device → List Bool → Bool
  | inputPin held, _ => held
  | outputPin _, values => values.head?.any id
  | gate .not _, values => !values.head?.any id
  | gate .and _, values => values.all id
  | gate .or _, values => values.any id

/-- Some references are those that the device uses, up to and including the first one with a
controlling value, or all of them if no value is controlling. -/
def IsVisit (device : Device) (valuation : DeviceId → Bool) (visited : List DeviceId) : Prop :=
  (visited = device.usedReferences ∧
    ∀ reference ∈ visited, device.controls (valuation reference) = false) ∨
  ∃ before last after, device.usedReferences = before ++ last :: after ∧
    visited = before ++ [last] ∧
    (∀ reference ∈ before, device.controls (valuation reference) = false) ∧
    device.controls (valuation last) = true

/-! ### Searching the references -/

/-- The references up to and including the first one that ends the search. -/
def searched (ends : DeviceId → Bool) : List DeviceId → List DeviceId
  | [] => []
  | first :: others => if ends first then [first] else first :: searched ends others

/-- A search goes through all the references, or ends at the first one that can end it. -/
theorem searched_cases (ends : DeviceId → Bool) (references : List DeviceId) :
    (searched ends references = references ∧
      ∀ reference ∈ searched ends references, ends reference = false) ∨
    ∃ before last after, references = before ++ last :: after ∧
      searched ends references = before ++ [last] ∧
      (∀ reference ∈ before, ends reference = false) ∧ ends last = true := by
  induction references with
  | nil => exact Or.inl ⟨rfl, fun _ member => absurd member List.not_mem_nil⟩
  | cons first others inductionHypothesis =>
    rw [searched]
    cases here : ends first with
    | true =>
      exact Or.inr ⟨[], first, others, rfl, rfl, fun _ member => absurd member List.not_mem_nil,
        here⟩
    | false =>
      rw [if_neg Bool.false_ne_true]
      rcases inductionHypothesis with ⟨whole, quiet⟩ | ⟨before, last, after, rfl, found, quiet, ended⟩
      · exact Or.inl ⟨congrArg (first :: ·) whole, List.forall_mem_cons.mpr ⟨here, quiet⟩⟩
      · exact Or.inr ⟨first :: before, last, after, rfl, congrArg (first :: ·) found,
          List.forall_mem_cons.mpr ⟨here, quiet⟩, ended⟩

/-- A search is the same if the same ones of the references that it went through end it. -/
theorem searched_congr {first second : DeviceId → Bool} {references : List DeviceId}
    (agree : ∀ reference ∈ searched first references, second reference = first reference) :
    searched second references = searched first references := by
  induction references with
  | nil => rfl
  | cons source others inductionHypothesis =>
    have same : second source = first source := by
      refine agree source ?_
      rw [searched]
      split <;> exact List.mem_cons_self
    rw [searched, searched, same]
    split
    · rfl
    · next further =>
      rw [searched, if_neg further] at agree
      exact congrArg (source :: ·) (inductionHypothesis (List.forall_mem_cons.mp agree).2)

/-- Whether some reference ends a search can be told from those that it goes through. -/
theorem any_searched (ends : DeviceId → Bool) (references : List DeviceId) :
    (searched ends references).any ends = references.any ends := by
  induction references with
  | nil => rfl
  | cons first others inductionHypothesis =>
    rw [searched]
    cases here : ends first with
    | true => simp only [if_true, List.any_cons, here, Bool.true_or]
    | false =>
      rw [if_neg Bool.false_ne_true, List.any_cons, List.any_cons, inductionHypothesis]

theorem any_congr_searched {first second : DeviceId → Bool} {references : List DeviceId}
    (agree : ∀ reference ∈ searched first references, second reference = first reference) :
    references.any second = references.any first :=
  calc references.any second
      = (searched first references).any second := by
        rw [← any_searched second, searched_congr agree]
    _ = (searched first references).any first := by
        rw [Bool.eq_iff_iff, List.any_eq_true, List.any_eq_true]
        exact exists_congr fun reference => and_congr_right fun member => by
          rw [agree reference member]
    _ = references.any first := any_searched first references

/-! ### The run of an evaluation -/

theorem run_ask (valuation : DeviceId → Bool) (reference : DeviceId) (asked : List DeviceId) :
    (ask valuation reference).run asked = .ok (valuation reference, asked ++ [reference]) :=
  rfl

theorem run_allM_ask (valuation : DeviceId → Bool) (references asked : List DeviceId) :
    (references.allM (ask valuation)).run asked =
      .ok (references.all valuation, asked ++ searched (fun source => !valuation source) references)
    := by
  induction references generalizing asked with
  | nil => exact congrArg (fun all => Except.ok (true, all)) (List.append_nil asked).symm
  | cons first others inductionHypothesis =>
    rw [List.allM, StateT.run_bind, run_ask, searched, List.all_cons]
    cases valuation first with
    | false => rfl
    | true =>
      refine (inductionHypothesis (asked ++ [first])).trans ?_
      rw [List.append_assoc]
      rfl

theorem run_anyM_ask (valuation : DeviceId → Bool) (references asked : List DeviceId) :
    (references.anyM (ask valuation)).run asked =
      .ok (references.any valuation, asked ++ searched valuation references) := by
  induction references generalizing asked with
  | nil => exact congrArg (fun all => Except.ok (false, all)) (List.append_nil asked).symm
  | cons first others inductionHypothesis =>
    rw [List.anyM, StateT.run_bind, run_ask, searched, List.any_cons]
    cases valuation first with
    | true => rfl
    | false =>
      refine (inductionHypothesis (asked ++ [first])).trans ?_
      rw [List.append_assoc]
      rfl

/-- The references that the evaluation of a device asks for. -/
def visited (device : Device) (valuation : DeviceId → Bool) : List DeviceId :=
  searched (fun reference => device.controls (valuation reference)) device.usedReferences

theorem isVisit_visited (device : Device) (valuation : DeviceId → Bool) :
    device.IsVisit valuation (device.visited valuation) :=
  searched_cases _ device.usedReferences

theorem consult_eq_ok {device : Device} (connected : device.IsConnected)
    (valuation : DeviceId → Bool) : device.consult valuation =
      .ok (device.function (device.usedReferences.map valuation), device.visited valuation) := by
  match device with
  | inputPin _ => rfl
  | outputPin [] | gate .not [] => exact absurd rfl connected
  | outputPin (_ :: _) | gate .not (_ :: _) => rfl
  | gate .and references =>
    refine (run_allM_ask valuation references []).trans ?_
    show _ = Except.ok ((references.map valuation).all id, _)
    rw [List.all_map]
    rfl
  | gate .or references =>
    refine (run_anyM_ask valuation references []).trans ?_
    show _ = Except.ok ((references.map valuation).any id, _)
    rw [List.any_map]
    rfl

/-- The values of the references that were not asked for do not matter to the questions. -/
theorem visited_congr {device : Device} {first second : DeviceId → Bool}
    (agree : ∀ reference ∈ device.visited first, second reference = first reference) :
    device.visited second = device.visited first :=
  searched_congr fun reference member => congrArg device.controls (agree reference member)

/-- The values of the references that were not asked for do not matter to the answer. -/
theorem function_congr {device : Device} {first second : DeviceId → Bool}
    (agree : ∀ reference ∈ device.visited first, second reference = first reference) :
    device.function (device.usedReferences.map second) =
      device.function (device.usedReferences.map first) := by
  match device with
  | inputPin _ | outputPin [] | gate .not [] => rfl
  | outputPin (source :: _) => exact agree source List.mem_cons_self
  | gate .not (source :: _) => exact congrArg (!·) (agree source List.mem_cons_self)
  | gate .and references =>
    show (references.map second).all id = (references.map first).all id
    rw [List.all_map, List.all_map, List.all_eq_not_any_not, List.all_eq_not_any_not]
    exact congrArg (!·) (any_congr_searched fun reference member =>
      congrArg (!·) (agree reference member))
  | gate .or references =>
    show (references.map second).any id = (references.map first).any id
    rw [List.any_map, List.any_map]
    exact any_congr_searched agree

/-! ### Main statement -/

/-- The evaluation of a connected device asks for the used references in order, up to the first one
whose value is controlling, and for all of them if there is none. That is the first reference alone
unless the device is an And or Or gate. The answer is that of the function of all the used
references. Any other valuation with the same values of the references that were asked for leads to
the same questions and the same answer. -/
theorem consult_spec {device : Device} (connected : device.IsConnected)
    (valuation : DeviceId → Bool) : ∃ visited,
      device.consult valuation =
        .ok (device.function (device.usedReferences.map valuation), visited) ∧
      visited <+: device.usedReferences ∧ device.IsVisit valuation visited ∧
      (device.kind? ≠ some .and → device.kind? ≠ some .or →
        visited = device.references.take 1) ∧
      ∀ other : DeviceId → Bool, (∀ reference ∈ visited, other reference = valuation reference) →
        device.consult other = device.consult valuation := by
  have visits := isVisit_visited device valuation
  refine ⟨device.visited valuation, consult_eq_ok connected valuation, ?_, visits,
    fun notAnd notOr => ?_, fun other agree => ?_⟩
  · rcases visits with ⟨whole, _⟩ | ⟨before, last, after, used, found, _⟩
    · exact whole ▸ List.prefix_rfl
    · rw [used, found]
      exact ⟨after, by rw [List.append_assoc]; rfl⟩
  · match device with
    | inputPin _ | outputPin [] | gate .not [] | outputPin (_ :: _) | gate .not (_ :: _) => rfl
    | gate .and _ => exact absurd rfl notAnd
    | gate .or _ => exact absurd rfl notOr
  · rw [consult_eq_ok connected other, consult_eq_ok connected valuation, function_congr agree,
      visited_congr agree]

/-- An And gate asks for its first reference once, although it has it twice. The second one is
false, so the last one may have any value. -/
theorem consult_stops_at_false :
    let device := gate .and [.ofIndex 0, .ofIndex 1, .ofIndex 0, .ofIndex 2]
    let valuation := fun reference : DeviceId => decide (reference ≠ .ofIndex 1)
    device.IsConnected ∧ ∃ visited, device.consult valuation = .ok (false, visited) ∧
      visited = [.ofIndex 0, .ofIndex 1] ∧ visited <+: device.usedReferences ∧
      device.consult (fun reference => decide (reference = .ofIndex 0)) =
        device.consult valuation := by
  intro device valuation
  have connected : device.IsConnected := trivial
  obtain ⟨visited, consults, isPrefix, _, _, others⟩ := consult_spec connected valuation
  have asked : device.consult valuation = .ok (false, [.ofIndex 0, .ofIndex 1]) := by decide
  obtain ⟨answer, rfl⟩ := Prod.mk.inj (Except.ok.inj (consults.symm.trans asked))
  exact ⟨connected, _, asked, rfl, isPrefix, others _ (by decide)⟩

end Device

end Combinational
