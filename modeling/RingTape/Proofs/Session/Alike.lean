/-
# What a session prints makes no difference

Between the executions of a session text is printed beside the events of the journal: reports
of errors, and answers to requests. Nothing in a machine looks at it. So interpreters that
differ in such text only stay alike, whatever is executed.
-/

import RingTape.Proofs.Execution.Observers
import RingTape.Session.Basic

namespace RingTape

namespace Machine

/-- Machines that nothing but printed text can tell apart. -/
structure Alike (m m' : Machine) : Prop where
  tape : m'.tape = m.tape
  sink : m'.sink = m.sink
  source : m'.source = m.source
  memory : m'.memory = m.memory
  hook : m'.hook = m.hook
  filter : m'.journal.filter = m.journal.filter
  events : m'.journal.events = m.journal.events

variable {m m' m'' after after' : Machine}

theorem Alike.refl (m : Machine) : Alike m m := ⟨rfl, rfl, rfl, rfl, rfl, rfl, rfl⟩

theorem Alike.symm (alike : Alike m m') : Alike m' m :=
  ⟨alike.tape.symm, alike.sink.symm, alike.source.symm, alike.memory.symm, alike.hook.symm,
    alike.filter.symm, alike.events.symm⟩

theorem Alike.trans (first : Alike m m') (second : Alike m' m'') : Alike m m'' :=
  ⟨second.tape.trans first.tape, second.sink.trans first.sink,
    second.source.trans first.source, second.memory.trans first.memory,
    second.hook.trans first.hook, second.filter.trans first.filter,
    second.events.trans first.events⟩

/-- Machines that were alike are alike when the same was done. -/
theorem Alike.of_twins (alike : Alike m m') (twins : Twins m m' after after') :
    Alike after after' := by
  obtain ⟨effects, observed, observed', -⟩ := twins.effects
  refine ⟨twins.tape, ?_, twins.source, twins.memory, ?_, ?_, ?_⟩
  · rw [observed'.sink, alike.sink, observed.sink]
  · rw [observed'.hook, alike.hook, observed.hook]
  · rw [observed'.filter, alike.filter, observed.filter]
  · rw [observed'.events, alike.events, alike.sink, alike.filter, observed.events]

theorem Alike.reset (alike : Alike m m') : Alike m.reset m'.reset :=
  { alike with tape := congrArg Tape.reset alike.tape }

end Machine

/-- Printed text is no event. -/
@[simp] theorem Journal.events_print (j : Journal) (text : String) :
    (j.print text).events = j.events := by
  simp [print, events]

namespace Interpreter

open Execution

/-- Interpreters that know the same commands and nothing but printed text can tell apart. -/
structure Alike (i j : Interpreter) : Prop where
  registry : j.registry = i.registry
  machine : i.machine.Alike j.machine

variable {i j k : Interpreter} {code : String}

theorem Alike.refl (i : Interpreter) : Alike i i := ⟨rfl, .refl i.machine⟩

theorem Alike.symm (alike : Alike i j) : Alike j i := ⟨alike.registry.symm, alike.machine.symm⟩

theorem Alike.trans (first : Alike i j) (second : Alike j k) : Alike i k :=
  ⟨second.registry.trans first.registry, first.machine.trans second.machine⟩

theorem alike_print (i : Interpreter) (text : String) : Alike i (i.print text) :=
  ⟨rfl, { Machine.Alike.refl i.machine with events := Journal.events_print _ _ }⟩

theorem Alike.reset (alike : Alike i j) : Alike i.reset j.reset :=
  ⟨alike.registry, alike.machine.reset⟩

/-- With as many steps both executions come as far, and to ends that are alike. -/
theorem Alike.execute (alike : Alike i j) (fuel : Nat) (code : String) :
    (i.execute fuel code = none ∧ j.execute fuel code = none) ∨
    ∃ result after after', i.execute fuel code = some (result, after) ∧
      j.execute fuel code = some (result, after') ∧ Alike after after' := by
  have twins : Machine.Twins i.machine j.machine i.machine j.machine :=
    .refl alike.machine.tape alike.machine.source alike.machine.memory
  rcases execute_and_execute alike.registry twins fuel code with
    running | ⟨result, after, after', executed, executed', commands, done⟩
  · exact .inl running
  · exact .inr ⟨result, after, after', executed, executed', commands,
      alike.machine.of_twins done⟩

/-- What one comes to the other comes to as well. -/
theorem Alike.exists_executes (alike : Alike i j) {result : Except ExecutionError Unit}
    {after : Interpreter} (executed : i.Executes code result after) :
    ∃ after', j.Executes code result after' ∧ Alike after after' := by
  obtain ⟨fuel, executed⟩ := executed
  rcases alike.execute fuel code with
    ⟨running, -⟩ | ⟨other, after₁, after', executed', executes, same⟩
  · rw [running] at executed
    cases executed
  · rw [executed'] at executed
    cases executed
    exact ⟨after', ⟨fuel, executes⟩, same⟩

/-- An execution that ended ends in the same way with more steps. -/
theorem execute_add {fuel : Nat} {answer : Except ExecutionError Unit × Interpreter}
    (executed : i.execute fuel code = some answer) (more : Nat) :
    i.execute (fuel + more) code = some answer := by
  rw [execute_eq] at executed ⊢
  cases run : advance (Program.ofString code) i.registry fuel (i.initial code) with
  | running c =>
    rw [run] at executed
    cases executed
  | halted result final => rwa [advance_add_of_halted run, ← run]

end Interpreter

end RingTape
