/-
This file gives the gates of some statements new numbers.

With new numbers the statements come in another order, and the gates are renamed in their sources.
The gates then read each other as before, under their new numbers. Equations have the same
solutions, and the same gates are read by no gate. Every permutation of the gates gives new numbers.
-/

import Combinational.Proofs.Counting
import Combinational.Proofs.Equations
import Mathlib.Data.List.FinRange

namespace Combinational

open Relation

/-! ### New numbers -/

/-- The source after the gates got new numbers. -/
def Source.rename (number : Nat → Nat) : Source → Source
  | input pin => input pin
  | gate producer => gate (number producer)

namespace Statement

/-- The statement after the gates got new numbers. -/
def rename (number : Nat → Nat) (statement : Statement) : Statement where
  kind := statement.kind
  sources := statement.sources.map (Source.rename number)

theorem rename_rename {number back : Nat → Nat} (undoes : ∀ gate, back (number gate) = gate)
    (statement : Statement) : (statement.rename number).rename back = statement := by
  have sources : (statement.sources.map (Source.rename number)).map (Source.rename back) =
      statement.sources := by
    rw [List.map_map]
    refine (List.map_congr_left fun source _ => ?_).trans (List.map_id _)
    cases source with
    | input _ => rfl
    | gate producer => exact congrArg Source.gate (undoes producer)
  rw [rename, rename, sources]

theorem gate_mem_rename_iff {number : Nat → Nat} (injective : Function.Injective number)
    {statement : Statement} {source : Nat} :
    .gate (number source) ∈ (statement.rename number).sources ↔
      .gate source ∈ statement.sources := by
  constructor
  · intro member
    obtain ⟨other, listed, same⟩ := List.mem_map.mp member
    cases other with
    | input _ => cases same
    | gate producer => exact injective (Source.gate.inj same) ▸ listed
  · exact fun member => List.mem_map_of_mem member

/-- Some statements are others in another order, with new numbers for the gates. -/
structure IsRenumbered (number : Equiv.Perm Nat) (first second : List Statement) : Prop where
  perm : second.Perm (first.map (rename number))
  numbered?_eq : ∀ gate,
    numbered? second (number gate) = (numbered? first gate).map (rename number)

namespace IsRenumbered

variable {number : Equiv.Perm Nat} {first second : List Statement}
  (renumbered : IsRenumbered number first second)

include renumbered

theorem symm : IsRenumbered number.symm second first where
  perm := by
    have back := renumbered.perm.map (rename number.symm)
    rw [List.map_map] at back
    have whole : first.map (rename number.symm ∘ rename number) = first :=
      (List.map_congr_left fun statement _ =>
        rename_rename number.symm_apply_apply statement).trans (List.map_id first)
    rw [whole] at back
    exact back.symm
  numbered?_eq gate := by
    have forth := renumbered.numbered?_eq (number.symm gate)
    rw [number.apply_symm_apply] at forth
    rw [forth, Option.map_map]
    have undone : rename number.symm ∘ rename number = id :=
      funext fun statement => rename_rename number.symm_apply_apply statement
    rw [undone, Option.map_id, id]

theorem length_eq : second.length = first.length := by
  rw [renumbered.perm.length_eq, List.length_map]

theorem inRange {gate : Nat} (range : 1 ≤ gate ∧ gate ≤ first.length) :
    1 ≤ number gate ∧ number gate ≤ second.length := by
  rw [← isSome_numbered?_iff] at range ⊢
  rw [renumbered.numbered?_eq gate, Option.isSome_map]
  exact range

theorem areDefined {inputs : Nat} (defined : AreDefined inputs first) :
    AreDefined inputs second := by
  intro statement member source listed
  obtain ⟨original, originalMember, rfl⟩ := List.mem_map.mp (renumbered.perm.mem_iff.mp member)
  obtain ⟨originalSource, originalListed, rfl⟩ := List.mem_map.mp listed
  have exists_source := defined original originalMember originalSource originalListed
  cases originalSource with
  | input _ => exact exists_source
  | gate producer =>
    exact Source.isDefined_gate.mpr (renumbered.inRange (Source.isDefined_gate.mp exists_source))

theorem sources_ne_nil (connected : ∀ statement ∈ first, statement.sources ≠ []) :
    ∀ statement ∈ second, statement.sources ≠ [] := by
  intro statement member lacking
  obtain ⟨original, originalMember, rfl⟩ := List.mem_map.mp (renumbered.perm.mem_iff.mp member)
  exact connected original originalMember (List.map_eq_nil_iff.mp lacking)

theorem reads {consumer source : Nat} (reads : Reads first consumer source) :
    Reads second (number consumer) (number source) := by
  obtain ⟨statement, given, listed⟩ := reads_iff_numbered?.mp reads
  refine reads_iff_numbered?.mpr ⟨statement.rename number, ?_, List.mem_map_of_mem listed⟩
  rw [renumbered.numbered?_eq, given, Option.map_some]

theorem isAcyclic (acyclic : IsAcyclic second) : IsAcyclic first :=
  fun gate loop => acyclic (number gate) (loop.lift number fun _ _ => renumbered.reads)

theorem isAcyclic_iff : IsAcyclic second ↔ IsAcyclic first :=
  ⟨renumbered.isAcyclic, renumbered.symm.isAcyclic⟩

theorem mem_unread {gate : Nat} (free : gate ∈ unread first) : number gate ∈ unread second := by
  obtain ⟨range, unreferenced⟩ := Statement.mem_unread_iff.mp free
  refine Statement.mem_unread_iff.mpr ⟨renumbered.inRange range, fun statement member listed => ?_⟩
  obtain ⟨original, originalMember, rfl⟩ := List.mem_map.mp (renumbered.perm.mem_iff.mp member)
  exact unreferenced original originalMember ((gate_mem_rename_iff number.injective).mp listed)

theorem mem_unread_iff {gate : Nat} : number gate ∈ unread second ↔ gate ∈ unread first := by
  refine ⟨fun free => ?_, renumbered.mem_unread⟩
  have back := renumbered.symm.mem_unread free
  rwa [number.symm_apply_apply] at back

theorem unread_perm : (unread second).Perm ((unread first).map number) := by
  have distinct (statements : List Statement) : (unread statements).Nodup :=
    (pairwise_unread statements).imp Nat.ne_of_lt
  refine (List.perm_ext_iff_of_nodup (distinct second)
    ((distinct first).map number.injective)).mpr fun gate => ?_
  constructor
  · intro free
    refine List.mem_map.mpr ⟨number.symm gate, ?_, number.apply_symm_apply gate⟩
    exact renumbered.symm.mem_unread free
  · intro listed
    obtain ⟨original, free, rfl⟩ := List.mem_map.mp listed
    exact renumbered.mem_unread free

theorem unread_eq_nil_iff : unread second = [] ↔ unread first = [] := by
  rw [← List.length_eq_zero_iff, ← List.length_eq_zero_iff, renumbered.unread_perm.length_eq,
    List.length_map]

theorem solves {Value : Type} {rule : Rule Value} {gates : Nat → Value}
    (solves : rule.Solves second gates) : rule.Solves first (gates ∘ number) := by
  intro gate statement given
  have renamed : numbered? second (number gate) = some (statement.rename number) := by
    rw [renumbered.numbered?_eq, given, Option.map_some]
  rw [Function.comp_apply, solves (number gate) (statement.rename number) renamed]
  show rule.gate statement.kind ((statement.sources.map (Source.rename number)).map
    (rule.source gates)) = _
  rw [List.map_map]
  refine congrArg (rule.gate statement.kind) (List.map_congr_left fun source _ => ?_)
  cases source <;> rfl

theorem foldl_recordStatement (statistics : Statistics) :
    second.foldl Statistics.recordStatement statistics =
      first.foldl Statistics.recordStatement statistics := by
  have renamed (statistics : Statistics) (statement : Statement) :
      statistics.recordStatement (statement.rename number) =
        statistics.recordStatement statement := by
    simp only [Statistics.recordStatement, rename, List.length_map]
  rw [Statistics.foldl_recordStatement_of_perm renumbered.perm, List.foldl_map]
  simp only [renamed]

end IsRenumbered

/-! ### Permuted gates -/

/-- The new number of a gate when some gates are permuted. Other numbers stay. -/
def renumber {count : Nat} (permutation : Equiv.Perm (Fin count)) : Nat → Nat
  | 0 => 0
  | position + 1 =>
    if inside : position < count then permutation ⟨position, inside⟩ + 1 else position + 1

theorem renumber_succ {count : Nat} (permutation : Equiv.Perm (Fin count)) (position : Fin count) :
    renumber permutation (position + 1) = permutation position + 1 :=
  dif_pos position.isLt

theorem renumber_symm_renumber {count : Nat} (permutation : Equiv.Perm (Fin count)) (gate : Nat) :
    renumber permutation.symm (renumber permutation gate) = gate := by
  cases gate with
  | zero => rfl
  | succ position =>
    by_cases inside : position < count
    · have here := renumber_succ permutation ⟨position, inside⟩
      rw [here, renumber_succ, Equiv.symm_apply_apply]
    · simp only [renumber, dif_neg inside]

/-- The new numbers of the gates, as a permutation of all numbers. -/
def renumbering {count : Nat} (permutation : Equiv.Perm (Fin count)) : Equiv.Perm Nat where
  toFun := renumber permutation
  invFun := renumber permutation.symm
  left_inv := renumber_symm_renumber permutation
  right_inv := renumber_symm_renumber permutation.symm

/-- The statements in the order of their new numbers, with the gates renamed in their sources. -/
def permute (statements : List Statement) (permutation : Equiv.Perm (Fin statements.length)) :
    List Statement :=
  List.ofFn fun position =>
    (statements.get (permutation.symm position)).rename (renumbering permutation)

theorem isRenumbered_permute (statements : List Statement)
    (permutation : Equiv.Perm (Fin statements.length)) :
    IsRenumbered (renumbering permutation) statements (permute statements permutation) where
  perm := by
    have original : statements.map (rename (renumbering permutation)) =
        List.ofFn (rename (renumbering permutation) ∘ statements.get) := by
      rw [← List.map_ofFn, List.ofFn_get]
    rw [original]
    exact Equiv.Perm.ofFn_comp_perm permutation.symm
      (rename (renumbering permutation) ∘ statements.get)
  numbered?_eq gate := by
    cases gate with
    | zero => rfl
    | succ position =>
      by_cases inside : position < statements.length
      · have here : renumbering permutation (position + 1) =
            permutation ⟨position, inside⟩ + 1 := renumber_succ permutation ⟨position, inside⟩
        rw [here, numbered?, numbered?, permute, List.getElem?_ofFn, dif_pos (Fin.isLt _),
          List.getElem?_eq_getElem inside, Option.map_some, Fin.eta, Equiv.symm_apply_apply]
        rfl
      · have here : renumbering permutation (position + 1) = position + 1 := dif_neg inside
        have outside : statements[position]? = none := List.getElem?_eq_none (by omega)
        have stillOutside : (permute statements permutation)[position]? = none :=
          List.getElem?_eq_none (by rw [permute, List.length_ofFn]; omega)
        rw [here, numbered?, numbered?, outside, stillOutside]
        rfl

end Statement

end Combinational
