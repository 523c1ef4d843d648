/-
This file proves that the table written row by row is the table that is shown.

The shown table collects all the rows first and starts a new line before each one. The written table
ends a line after each one, as soon as the row is known. Both go through the same assignments, and
whenever they have seen the same rows, what has been written is what would be shown of them, with
the last line ended. This passes from one row to the next, so it holds in the end, of every circuit
and of every writer that puts each text behind the one before. The bar between the rows leaves no
trace in what is written, and can only end the writing early.
-/

import Combinational.CommandLine.TableWriter
import Combinational.Proofs.Completion
import Combinational.Proofs.Tabulation

namespace Combinational

namespace Circuit

/-! ### Written and collected rows -/

/-- A sweep may keep a view of its result instead, if the view of a result and a row give the view
of the result with the row. -/
theorem sweep_view {Result View : Type} (view : Result → View) (keep : Result → Row → Result)
    (keepView : View → Row → View)
    (keeps : ∀ result row, keepView (view result) row = view (keep result row))
    (pattern : Nat → List Bool) (count number : Nat) (result : Result) (circuit : Circuit) :
    sweep pattern keepView count number (view result) circuit =
      ((sweep pattern keep count number result circuit).1.map view,
        (sweep pattern keep count number result circuit).2) := by
  induction count generalizing number result circuit with
  | zero => rfl
  | succ count inductionHypothesis =>
    unfold sweep
    cases circuit.setInputs (pattern number) with
    | error misuse => rfl
    | ok assigned =>
      cases outputs : assigned.outputValues with
      | error misuse => simp only [outputs, Except.map]
      | ok values =>
        simp only [outputs, keeps]
        exact inductionHypothesis ..

theorem sweepAssignments_view {Result View : Type} (view : Result → View)
    (keep : Result → Row → Result) (keepView : View → Row → View)
    (keeps : ∀ result row, keepView (view result) row = view (keep result row)) (result : Result)
    (circuit : Circuit) : circuit.sweepAssignments keepView (view result) =
      ((circuit.sweepAssignments keep result).1.map view,
        (circuit.sweepAssignments keep result).2) := by
  unfold sweepAssignments
  cases Assignments.all circuit.inputCount with
  | error misuse => rfl
  | ok assignments => exact sweep_view view keep keepView keeps ..

/-- Adds the line of a row. -/
def addLine (written : String) (row : Row) : String :=
  written ++ row.text ++ "\n"

/-- The lines of all rows behind the header are the shown table with its last line ended, whatever
the circuit. -/
theorem sweepAssignments_addLine (circuit : Circuit) :
    circuit.sweepAssignments addLine
        (TruthTable.header circuit.inputCount circuit.outputCount ++ "\n") =
      (circuit.evaluateAll.1.map (· ++ "\n"), circuit.evaluateAll.2) := by
  let table (rows : Array Row) : TruthTable :=
    { inputCount := circuit.inputCount, outputCount := circuit.outputCount, rows }
  have keeps : ∀ rows row, addLine ((table rows).text ++ "\n") row =
      (table (rows.push row)).text ++ "\n" := by
    intro rows row
    simp only [addLine, table, TruthTable.text, Array.foldl_push]
  have written := sweepAssignments_view (fun rows => (table rows).text ++ "\n") Array.push
    addLine keeps #[] circuit
  refine Eq.trans written ?_
  unfold evaluateAll truthTable
  rcases circuit.sweepAssignments Array.push #[] with ⟨misuse | rows, left⟩
  · rfl
  · rfl

end Circuit

/-! ### Writing row by row -/

namespace CommandLine

open Circuit

section Writing

variable {State Terminal : Type}
  {write : String → ExceptT FileError (StateT State (StateM Terminal)) Unit}
  {view : String → State} (appends : Appends write view) (bar : Bar (StateM Terminal))

include appends

/-- Each step of a sweep writes the line of one assignment, behind what was written earlier. -/
theorem completes_writeRows (earlier : String) (pattern : Nat → List Bool) {count number : Nat}
    {written text : String} {circuit left : Circuit}
    (sweeps : sweep pattern addLine count number written circuit = (.ok text, left)) :
    Completes (Excuses bar view)
      (writeRows write (bar.hoist StateT.lift) ((List.range' number count).map pattern) circuit)
      (view (earlier ++ written)) left (view (earlier ++ text)) := by
  induction count generalizing number written circuit with
  | zero =>
    obtain ⟨same, rfl⟩ := Prod.mk.inj sweeps
    obtain rfl := Except.ok.inj same
    exact completes_pure circuit _
  | succ count inductionHypothesis =>
    rw [List.range'_succ, List.map_cons]
    unfold sweep at sweeps
    cases assigns : circuit.setInputs (pattern number) with
    | error misuse =>
      rw [assigns] at sweeps
      cases Prod.mk.inj sweeps with | intro fails _ => cases fails
    | ok assigned =>
      cases evaluates : assigned.outputValues with
      | error misuse =>
        simp only [assigns, evaluates] at sweeps
        cases Prod.mk.inj sweeps with | intro fails _ => cases fails
      | ok outputs =>
        simp only [assigns, evaluates] at sweeps
        have behind : earlier ++ written ++
            (Row.text { inputs := pattern number, outputs } ++ "\n") =
              earlier ++ addLine written { inputs := pattern number, outputs } := by
          simp only [addLine, String.append_assoc]
        refine (completes_ofCircuit assigns _).bind ?_
        refine (completes_ofCircuit evaluates _).bind ?_
        refine (appends.completes (earlier ++ written) _).bind ?_
        refine (completes_shown (fun reliable => reliable.update 1) view _).bind ?_
        rw [behind]
        exact inductionHypothesis sweeps

/-- What is written of a circuit is what is shown of it, with the last line ended. -/
theorem completes_writeTruthTable {circuit left : Circuit} {text : String}
    (shows : circuit.evaluateAll = (.ok text, left)) (written : String) :
    Completes (Excuses bar view) (writeTruthTable write (bar.hoist StateT.lift) circuit)
      (view written) left (view (written ++ (text ++ "\n"))) := by
  have sweeps := sweepAssignments_addLine circuit
  rw [shows] at sweeps
  unfold sweepAssignments at sweeps
  cases enumerates : Assignments.all circuit.inputCount with
  | error misuse =>
    rw [enumerates] at sweeps
    cases Prod.mk.inj sweeps with | intro fails _ => cases fails
  | ok assignments =>
    rw [enumerates] at sweeps
    refine (completes_ofCircuit enumerates _).bind ?_
    refine (completes_lift (bar.start assignments.remaining) _).bind ?_
    refine (completes_lift (bar.describe "Rows") _).bind ?_
    refine (completes_shown (fun reliable => reliable.write _) view _).bind ?_
    refine (appends.completes written _).bind ?_
    refine (completes_writeRows appends bar written _ sweeps).bind ?_
    refine (completes_shown (fun reliable => reliable.refresh) view _).bind ?_
    refine (completes_lift bar.finish _).bind ?_
    exact completes_pure left _

end Writing

end CommandLine

/-! ### Main statement -/

namespace Circuit

open CommandLine

/-- Some text is shown of a circuit. The same text and a line feed are written of it row by row,
behind what was written before, if the bar can be shown, and each way leaves the same circuit. -/
structure Tabulates (circuit : Circuit) (text : String) (left : Circuit) : Prop where
  evaluateAll_eq : circuit.evaluateAll = (.ok text, left)
  writes : ∀ {State Terminal : Type}
    {write : String → ExceptT FileError (StateT State (StateM Terminal)) Unit}
    {view : String → State} {bar : Bar (StateM Terminal)},
    Appends write view → bar.IsReliable → ∀ written terminal, ∃ shown,
      ((writeTruthTable write (bar.hoist StateT.lift) circuit).run.run
          (view written)).run terminal =
        ((.ok left, view (written ++ (text ++ "\n"))), shown)

/-- What is shown is what is written. -/
theorem tabulates_of_evaluateAll {circuit left : Circuit} {text : String}
    (shows : circuit.evaluateAll = (.ok text, left)) : circuit.Tabulates text left :=
  ⟨shows, fun appends reliable written =>
    (completes_writeTruthTable appends _ shows written).exists_run
      fun _ _ excuse => excuse.1 reliable⟩

/-- Of a sorted circuit without unconnected Not gates, a table is shown, whatever its pins hold. The
table written row by row is the same with a line feed at the end, and leaves the same circuit. -/
theorem tabulates_spec {circuit : Circuit} (reachable : circuit.Reachable)
    (small : circuit.devices.size < UInt32.size) (sorted : circuit.isSorted = true)
    (nots : circuit.HasConnectedNots)
    (pins : 1 ≤ circuit.inputCount ∧ circuit.inputCount < 64) :
    ∃ text left, circuit.Tabulates text left ∧
      ∀ held, (circuit.withPins held).Tabulates text left := by
  have shows := evaluateAll_withPins (reachable.wellFormed small) small.le
    (responds_of_isSorted reachable small sorted nots) pins
  have whatever := fun held => tabulates_of_evaluateAll (shows held)
  have asItIs := whatever circuit.heldValue
  rw [withPins_heldValue small.le] at asItIs
  exact ⟨_, _, asItIs, whatever⟩

/-- A circuit of which two of three pins are true is shown as it is written to a file, and its pins
may as well be false. -/
theorem tabulates_true_pins :
    let circuit := ofOperations [.addInput, .addInput, .addInput, .addGate .and, .addGate .not,
      .addGate .or, .connect (.ofIndex 3) (.ofIndex 0), .connect (.ofIndex 3) (.ofIndex 4),
      .connect (.ofIndex 3) (.ofIndex 5), .connect (.ofIndex 4) (.ofIndex 1),
      .connect (.ofIndex 5) (.ofIndex 4), .connect (.ofIndex 5) (.ofIndex 2),
      .addOutput (.ofIndex 3), .sort, .setInput 1 true, .setInput 3 true]
    circuit.Reachable ∧ circuit.devices.size < UInt32.size ∧ circuit.isSorted = true ∧
      circuit.HasConnectedNots ∧ (1 ≤ circuit.inputCount ∧ circuit.inputCount < 64) ∧
      circuit.inputValues = [true, false, true] ∧
      ∃ text left, circuit.Tabulates text left ∧
        (circuit.withPins fun _ => false).Tabulates text left ∧
        ∃ shown, ((writeTruthTable ((Directory.filesOver (StateM Display)).write "table")
            (Display.bar.hoist StateT.lift) circuit).run.run
              ((Directory.flat []).write "table" "")).run {} =
          ((.ok left, (Directory.flat []).write "table" (text ++ "\n")), shown) := by
  intro circuit
  have reachable : circuit.Reachable := reachable_ofOperations _
  have small : circuit.devices.size < UInt32.size := by decide
  have sorted : circuit.isSorted = true := by decide
  have nots : circuit.HasConnectedNots := by decide
  have pins : 1 ≤ circuit.inputCount ∧ circuit.inputCount < 64 := by decide
  obtain ⟨text, left, asItIs, whatever⟩ := tabulates_spec reachable small sorted nots pins
  have writes := asItIs.writes ((Directory.flat []).appends_write Display "table")
    Display.isReliable_bar "" {}
  rw [String.empty_append] at writes
  exact ⟨reachable, small, sorted, nots, pins, by decide, text, left, asItIs, whatever _, writes⟩

end Circuit

end Combinational
