/-
This file composes steps that complete unless they have an excuse.

A step that uses the terminal may fail there, at any time. What it does if it does not fail is the
same for every terminal: it gives a certain value and leaves a certain state. Both facts are passed
on from step to step, so a whole task either completes or has failed for the excuse of one of its
steps, in a state in which this step may fail. A terminal on which the bar can be shown gives no
excuse.
-/

import Combinational.Bar
import Combinational.CommandLine.Outcome
import Combinational.Directory

namespace Combinational

variable {State Terminal : Type}

/-! ### Steps -/

section Steps

variable {Error First Second : Type}

/-- Whatever the terminal shows, the step gives a value and leads from one state to another one, or
it fails with an error that is excused in the state that it leaves. -/
def Completes (excused : Error → State → Prop)
    (step : ExceptT Error (StateT State (StateM Terminal)) First) (before : State) (value : First)
    (after : State) : Prop :=
  ∀ terminal,
    (∃ shown, (step.run.run before).run terminal = ((.ok value, after), shown)) ∨
    ∃ error left shown,
      (step.run.run before).run terminal = ((.error error, left), shown) ∧ excused error left

variable {excused : Error → State → Prop}
  {step : ExceptT Error (StateT State (StateM Terminal)) First} {before middle after : State}
  {first : First} {second : Second}

theorem completes_pure (value : First) (state : State) :
    Completes excused
      (pure value : ExceptT Error (StateT State (StateM Terminal)) First) state value state :=
  fun terminal => .inl ⟨terminal, rfl⟩

/-- A step that does not use the terminal, and succeeds. -/
theorem completes_of_run (run : step.run.run before = pure (.ok first, after)) :
    Completes excused step before first after :=
  fun terminal => .inl ⟨terminal, by rw [run]; rfl⟩

/-- A step that uses nothing but the terminal, and cannot fail there. -/
theorem completes_lift (shows : StateM Terminal Unit) (state : State) :
    Completes excused (liftM (StateT.lift shows : StateT State (StateM Terminal) Unit) :
      ExceptT Error (StateT State (StateM Terminal)) Unit) state () state :=
  fun terminal => .inl ⟨(shows.run terminal).2, rfl⟩

/-- The second step goes on where the first one has completed. -/
theorem Completes.bind {next : First → ExceptT Error (StateT State (StateM Terminal)) Second}
    (completes : Completes excused step before first middle)
    (further : Completes excused (next first) middle second after) :
    Completes excused (step >>= next) before second after := by
  intro terminal
  obtain ⟨shown, run⟩ | ⟨error, left, shown, run, excuse⟩ := completes terminal
  · have goesOn : ((step >>= next).run.run before).run terminal =
        ((next first).run.run middle).run shown := by
      rw [ExceptT.run_bind, StateT.run_bind, StateT.run_bind, run]
      rfl
    rw [goesOn]
    exact further shown
  · refine .inr ⟨error, left, shown, ?_, excuse⟩
    rw [ExceptT.run_bind, StateT.run_bind, StateT.run_bind, run]
    rfl

/-- An error may be reported in another way. -/
theorem Completes.adapt {Report : Type} {reported : Report → State → Prop} {report : Error → Report}
    (completes : Completes excused step before first after)
    (excuses : ∀ error left, excused error left → reported (report error) left) :
    Completes reported (step.adapt report) before first after := by
  intro terminal
  have adapts : ((step.adapt report).run.run before).run terminal =
      let run := (step.run.run before).run terminal
      ((run.1.1.mapError report, run.1.2), run.2) := by
    show ((Except.mapError report <$> step.run).run before).run terminal = _
    rw [StateT.run_map, StateT.run_map]
    rfl
  rw [adapts]
  obtain ⟨shown, run⟩ | ⟨error, left, shown, run, excuse⟩ := completes terminal
  · exact .inl ⟨shown, by rw [run]; rfl⟩
  · exact .inr ⟨report error, left, shown, by rw [run]; rfl, excuses error left excuse⟩

/-- Without excuses, a step completes. -/
theorem Completes.exists_run (completes : Completes excused step before first after)
    (strict : ∀ error left, ¬ excused error left) (terminal : Terminal) :
    ∃ shown, (step.run.run before).run terminal = ((.ok first, after), shown) :=
  (completes terminal).resolve_right fun ⟨error, left, _, _, excuse⟩ => strict error left excuse

end Steps

/-! ### The bar -/

/-- The bar can always be shown. -/
structure Bar.IsReliable (bar : Bar (StateM Terminal)) : Prop where
  write : ∀ line terminal, ((bar.write line).run.run terminal).1 = .ok ()
  update : ∀ steps terminal, ((bar.update steps).run.run terminal).1 = .ok ()
  refresh : ∀ terminal, (bar.refresh.run.run terminal).1 = .ok ()

theorem Display.isReliable_bar : Display.bar.IsReliable where
  write _ _ := rfl
  update _ _ := rfl
  refresh _ := rfl

namespace CommandLine

/-- The terminal failed, and that is because the bar cannot always be shown. What had been written
before is there. -/
def Excuses (bar : Bar (StateM Terminal)) (view : String → State) (failure : Failure)
    (left : State) : Prop :=
  ¬ bar.IsReliable ∧ (∃ cause, failure = .file cause) ∧ ∃ written, left = view written

/-- A step of the bar changes nothing else. -/
theorem completes_shown {bar : Bar (StateM Terminal)}
    {step : ExceptT FileError (StateM Terminal) Unit}
    (sure : bar.IsReliable → ∀ terminal, (step.run.run terminal).1 = .ok ())
    (view : String → State) (written : String) :
    Completes (Excuses bar view)
      (ofSystem (.mk (StateT.lift step.run : StateT State (StateM Terminal) _)))
      (view written) () (view written) := by
  have completes : Completes (fun _ left => ¬ bar.IsReliable ∧ left = view written)
      (.mk (StateT.lift step.run : StateT State (StateM Terminal) _))
      (view written) () (view written) := by
    intro terminal
    have carried : ((ExceptT.mk (StateT.lift step.run : StateT State (StateM Terminal) _)).run.run
        (view written)).run terminal =
          (((step.run.run terminal).1, view written), (step.run.run terminal).2) :=
      rfl
    rw [carried]
    rcases run : step.run.run terminal with ⟨error | _, shown⟩
    · refine .inr ⟨error, view written, shown, rfl, fun reliable => ?_, rfl⟩
      have succeeds := sure reliable terminal
      rw [run] at succeeds
      cases succeeds
    · exact .inl ⟨shown, rfl⟩
  exact completes.adapt fun cause _ excuse => ⟨excuse.1, ⟨cause, rfl⟩, written, excuse.2⟩

theorem completes_ofCircuit {Value : Type} {excused : Failure → State → Prop}
    {answer : Except Misuse Value} {value : Value} (answers : answer = .ok value) (state : State) :
    Completes excused
      (ofCircuit answer : ExceptT Failure (StateT State (StateM Terminal)) Value) state value
      state := by
  subst answers
  exact completes_pure value state

end CommandLine

/-! ### Writers -/

/-- Each text is written behind those before it. A view says which state shows what was written. -/
def Appends (write : String → ExceptT FileError (StateT State (StateM Terminal)) Unit)
    (view : String → State) : Prop :=
  ∀ written text,
    Completes (fun _ _ => False) (write text) (view written) () (view (written ++ text))

theorem Appends.completes {write : String → ExceptT FileError (StateT State (StateM Terminal)) Unit}
    {view : String → State} (appends : Appends write view)
    {excused : CommandLine.Failure → State → Prop} (written text : String) :
    Completes excused (CommandLine.ofSystem (write text)) (view written) ()
      (view (written ++ text)) :=
  (appends written text).adapt fun _ _ => False.elim

/-- Each text that is written to a file that was created stands behind those before it. -/
theorem Directory.appends_write (Terminal : Type) (directory : Directory) (name : String) :
    Appends ((filesOver (StateM Terminal)).write name) (directory.write name) := by
  intro written text
  refine completes_of_run ?_
  rw [run_write, append_write]

end Combinational
