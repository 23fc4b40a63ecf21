/-
# Observers have no influence

Whoever takes the numbers of a run, its diagnostics, its events or the table of its
steps, the run is the same. Two runs from machines that differ in their observers only
stay in step with each other: they read the same characters, hand over the same effects
and end together. A tracer sees the rows of the table between the steps, but has no way
to answer, and what it prints between the events of the journal changes none of them.
-/

import RingTape.Proofs.Execution.Parallel
import RingTape.Proofs.Machine.Effects

namespace RingTape

/-- The engine does not see observers, and its own notes go to those on both sides. -/
theorem Machine.masks_twins (base base' : Machine) : Masks (Twins base base') where
  zero _ _ twins := by rw [twins.get_eq]
  record _ _ _ by_engine twins := twins.record by_engine

namespace Execution

/-- A tracer that leaves the events of the journal alone. It may print between them, and
it may drop, cut or refuse whatever it likes of the table. -/
structure Tracer.Discreet {ω : Type} (tracer : Tracer ω) : Prop where
  filter : ∀ text journal w, (tracer.write text (journal, w)).1.filter = journal.filter
  events : ∀ text journal w, (tracer.write text (journal, w)).1.events = journal.events

/-- A tracer that never touches the journal is discreet, whatever becomes of the text. -/
theorem Tracer.discreet_of_apart {ω : Type} {tracer : Tracer ω}
    (apart : ∀ text journal w, (tracer.write text (journal, w)).1 = journal) :
    tracer.Discreet :=
  ⟨fun text journal w => by rw [apart], fun text journal w => by rw [apart]⟩

/-- A writer may be full at any byte. -/
theorem Tracer.discreet_toWriter : Tracer.toWriter.Discreet :=
  discreet_of_apart fun _ _ _ => rfl

/-- Text that is printed beside the events is none of them. -/
theorem Tracer.discreet_toJournal : Tracer.toJournal.Discreet := by
  refine ⟨fun _ _ _ => rfl, fun text journal _ => ?_⟩
  simp [toJournal, Journal.print, Journal.events]

variable {program : Program} {registry : Registry} {base base' : Machine} {c d : Configuration}

/-- The same row tells of the steps from and to states of twins. -/
theorem Parallel.row_eq {after after' : Configuration}
    (before : Parallel (Machine.Twins base base') c d)
    (behind : Parallel (Machine.Twins base base') after after') (name : Char) (move : Move) :
    d.row name move after' = c.row name move after := by
  simp only [Configuration.row, before.index, before.steps, before.machine.tape,
    before.machine.get_eq, behind.machine.tape, behind.machine.get_eq]

/-- What a discreet tracer does with a piece of the table is no concern of the machine. -/
theorem Tracer.Discreet.twins_onMachine {ω : Type} {tracer : Tracer ω} {m m' : Machine}
    (discreet : tracer.Discreet) (piece : String) (w : ω)
    (twins : Machine.Twins base base' m m') :
    Machine.Twins base base' m (tracer.onMachine piece m' w).1 := by
  have unseen : Machine.Observed m' [] (tracer.onMachine piece m' w).1 :=
    { Machine.Observed.refl m' with
      filter := discreet.filter piece m'.journal w
      events := (discreet.events piece m'.journal w).trans (List.append_nil _).symm }
  exact twins.frame twins.tape twins.source twins.memory (.refl m) unseen

/-- Nor is the header. -/
theorem Tracer.Discreet.twins_begin {ω : Type} {tracer : Tracer ω} {m m' : Machine}
    (discreet : tracer.Discreet) (w : ω) (twins : Machine.Twins base base' m m') :
    Machine.Twins base base' m (tracer.begin m' w).1 :=
  discreet.twins_onMachine _ _ (discreet.twins_onMachine _ w twins)

/-- A traced run does what the run without a table does. -/
theorem Parallel.advanceTraced {ω : Type} {tracer : Tracer ω} (discreet : tracer.Discreet)
    (n : Nat) (w : ω) (parallel : Parallel (Machine.Twins base base') c d) :
    ∃ traced w', advanceTraced tracer program registry n d w = (traced, w') ∧
      InStep (Parallel (Machine.Twins base base')) (advance program registry n c) traced := by
  induction n generalizing c d w with
  | zero => exact ⟨_, w, rfl, .running parallel⟩
  | succ n ih =>
    obtain ⟨outcome, performs⟩ := exists_performs program.toList registry c
    cases outcome with
    | next row after =>
      obtain ⟨name, move, after', rfl, performs', behind⟩ :=
        parallel.step (Machine.masks_twins base base')
          (fun _ routine _ _ => parallel.machine.performAt c.index routine) performs
      rw [parallel.row_eq behind] at performs'
      rw [advance_succ_of_next performs, Execution.advanceTraced, performs'.step_eq]
      -- The tracer is given the row when the step is done, and returns nothing but a journal.
      exact ih _ { behind with machine := discreet.twins_onMachine _ w behind.machine }
    | halt result final =>
      obtain rfl := performs.final_eq
      rw [advance_succ_of_halt performs, Execution.advanceTraced,
        (parallel.halt performs).step_eq]
      exact ⟨_, w, rfl, .halted parallel⟩

end Execution

namespace Interpreter

open Execution

variable {ω : Type} {tracer : Tracer ω} {i j : Interpreter}

/-- An execution begins alike before other observers. -/
theorem twins_initial (twins : Machine.Twins i.machine j.machine i.machine j.machine)
    (code : String) :
    Machine.Twins i.machine j.machine (i.initial code).machine (j.initial code).machine := by
  have same_start : (j.initial code).machine =
      j.machine.record (.executionStarted (Program.ofString code).size i.machine.tape.size) := by
    rw [initial, Configuration.start, start, twins.tape]
  rw [same_start]
  exact twins.record rfl

/-- With as many steps, a traced execution before other observers comes as far, and to
the same end. -/
theorem execute_and_executeTraced (discreet : tracer.Discreet) (registry : j.registry = i.registry)
    (twins : Machine.Twins i.machine j.machine i.machine j.machine) (fuel : Nat) (code : String)
    (w : ω) :
    (i.execute fuel code = none ∧ j.executeTraced tracer fuel code w = none) ∨
    ∃ result after after' w', i.execute fuel code = some (result, after) ∧
      j.executeTraced tracer fuel code w = some (result, after', w') ∧
      after'.registry = after.registry ∧
      Machine.Twins i.machine j.machine after.machine after'.machine := by
  have begins : Parallel (Machine.Twins i.machine j.machine) (i.initial code)
      (.start (j.begun tracer code w).1) :=
    ⟨rfl, rfl, rfl, discreet.twins_begin w (twins_initial twins code)⟩
  rw [execute_eq, executeTraced_eq, registry]
  obtain ⟨traced, w', run, in_step⟩ :=
    begins.advanceTraced discreet fuel (j.begun tracer code w).2
  rw [run]
  generalize advance (Program.ofString code) i.registry fuel (i.initial code) = progress
    at in_step ⊢
  cases in_step with
  | running => exact .inl ⟨rfl, rfl⟩
  | halted states =>
    refine .inr ⟨_, _, _, w', rfl, rfl, rfl, ?_⟩
    rw [states.steps]
    exact states.machine.record (isOfCommand_closing _ _)

/-- Without a table the executions come as far, and to the same end, as well. -/
theorem execute_and_execute (registry : j.registry = i.registry)
    (twins : Machine.Twins i.machine j.machine i.machine j.machine) (fuel : Nat) (code : String) :
    (i.execute fuel code = none ∧ j.execute fuel code = none) ∨
    ∃ result after after', i.execute fuel code = some (result, after) ∧
      j.execute fuel code = some (result, after') ∧ after'.registry = after.registry ∧
      Machine.Twins i.machine j.machine after.machine after'.machine := by
  have begins : Parallel (Machine.Twins i.machine j.machine) (i.initial code) (j.initial code) :=
    ⟨rfl, rfl, rfl, twins_initial twins code⟩
  have masks := Machine.masks_twins i.machine j.machine
  have in_step : i.InStepAfter (Machine.Twins i.machine j.machine) j code fuel := by
    rw [InStepAfter, registry]
    exact begins.inStep masks
      (fun c d _ routine parallel _ _ _ => parallel.machine.performAt c.index routine) fuel
      fun _ _ _ _ => trivial
  rcases execute_of_inStep masks in_step with
    running | ⟨result, after, after', executed, executed', same, same', still⟩
  · exact .inl running
  · exact .inr ⟨result, after, after', executed, executed',
      same'.trans (registry.trans same.symm), still⟩

/-- Whoever observes it, and whatever becomes of its table, an execution is the same. It
ends or goes on for ever, with the same result, tape, input and memory. Both hand over
the same effects: a sink gets every number as a batch of its own, refused or not, a hook
gets every diagnostic if there is one, and the journal, as far as its filter passes it,
one event for each refusal at its place and one for each diagnostic. -/
theorem execution_unobserved (discreet : tracer.Discreet) (registry : Registry) (m : Machine)
    (sink sink' : Sink) (hook hook' : Option (List Diagnostic)) (journal journal' : Journal)
    (code : String) (w : ω) :
    let i : Interpreter := ⟨{ m with sink, hook, journal }, registry⟩
    let j : Interpreter := ⟨{ m with sink := sink', hook := hook', journal := journal' }, registry⟩
    (i.Terminates code ↔ j.TerminatesTraced tracer code w) ∧
    ∀ result after result' after' w', i.Executes code result after →
      j.ExecutesTraced tracer code w result' after' w' →
      result' = result ∧ after'.machine.tape = after.machine.tape ∧
      after'.machine.source = after.machine.source ∧
      after'.machine.memory = after.machine.memory ∧ after'.registry = after.registry ∧
      ∃ effects : List Effect,
        (∀ event, .noted event ∈ effects → event.isOfCommand = false) ∧
        i.machine.Observed effects after.machine ∧ j.machine.Observed effects after'.machine ∧
        after.machine.sink.batches =
          ((effects.filterMap Effect.value?).map ([·])).reverse ++ sink.batches ∧
        after'.machine.sink.batches =
          ((effects.filterMap Effect.value?).map ([·])).reverse ++ sink'.batches := by
  intro i j
  have twins : Machine.Twins i.machine j.machine i.machine j.machine := .refl rfl rfl rfl
  have commands : j.registry = i.registry := rfl
  have together (fuel : Nat) :
      (i.execute fuel code = none ∧ j.executeTraced tracer fuel code w = none) ∨
      ∃ result after after' w', i.execute fuel code = some (result, after) ∧
        j.executeTraced tracer fuel code w = some (result, after', w') ∧
        after'.registry = after.registry ∧
        Machine.Twins i.machine j.machine after.machine after'.machine :=
    execute_and_executeTraced discreet commands twins fuel code w
  refine ⟨⟨?_, ?_⟩, ?_⟩
  · rintro ⟨result, after, fuel, executed⟩
    rcases together fuel with ⟨running, -⟩ | ⟨result', -, after', w', -, traced, -⟩
    · rw [running] at executed
      cases executed
    · exact ⟨result', after', w', fuel, traced⟩
  · rintro ⟨result', after', w', fuel, traced⟩
    rcases together fuel with ⟨-, running⟩ | ⟨result, after, -, -, executed, -⟩
    · rw [running] at traced
      cases traced
    · exact ⟨result, after, fuel, executed⟩
  · rintro result after result' after' w' executed ⟨fuel, traced⟩
    rcases together fuel with ⟨-, running⟩ | ⟨other, again, after'', w'', executed', same, rest⟩
    · rw [running] at traced
      cases traced
    · rw [same] at traced
      cases traced
      obtain ⟨rfl, rfl⟩ := executed.unique ⟨fuel, executed'⟩
      obtain ⟨kept, tape, source, memory, effects, observed, observed', notes⟩ := rest
      refine ⟨rfl, tape, source, memory, kept, effects, notes, observed, observed', ?_, ?_⟩
      · rw [observed.sink, Sink.batches_after]
      · rw [observed'.sink, Sink.batches_after]

/-- A run with a sink that takes everything and no hook, beside a traced one with a sink
that refuses everything, a hook, and a writer that is full before the header ends. -/
theorem execution_unobserved_when_refused :
    let m : Machine := ⟨.blank 2 .byte (by decide), .collecting, .stream [], none, none, [], {}⟩
    let i : Interpreter := ⟨m, .empty⟩
    let j : Interpreter := ⟨{ m with sink := .refusing "closed", hook := some [] }, .empty⟩
    Tracer.toWriter.Discreet ∧ ∃ result after after' w',
      i.Executes "+[.,-]" result after ∧
      j.ExecutesTraced .toWriter "+[.,-]" { room := some 60 } result after' w' ∧
      after'.machine.tape = after.machine.tape := by
  intro m i j
  obtain ⟨together, same⟩ := execution_unobserved Tracer.discreet_toWriter .empty m .collecting
    (.refusing "closed") none (some []) {} {} "+[.,-]" { room := some 60 }
  have ended : (i.execute 20 "+[.,-]").isSome := by decide
  obtain ⟨⟨result, after⟩, executed⟩ := Option.isSome_iff_exists.mp ended
  obtain ⟨result', after', w', traced⟩ := together.mp ⟨result, after, 20, executed⟩
  obtain ⟨rfl, tape, -⟩ := same result after result' after' w' ⟨20, executed⟩ traced
  exact ⟨Tracer.discreet_toWriter, result', after, after', w', ⟨20, executed⟩, traced, tape⟩

end Interpreter

end RingTape
