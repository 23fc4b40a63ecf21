/-
# Two runs of one program

A run depends on its machine in one way only, which is whether the cell is zero where a
loop begins. So two runs of one program from different machines go through the same
instructions as long as every command keeps the machines related in some way that shows
in this test. The relation is a parameter here. What is proved once is that the runs are
then in step: after any number of steps both are at the same instruction in the same
loops, or both have halted with the same result.

A command need not keep the relation everywhere. It is enough that it does in the states
which one of the two runs comes through.
-/

import RingTape.Proofs.Command.Primitive
import RingTape.Proofs.Execution.Stepping

namespace RingTape

/-- A relation of machines that the engine cannot see through: it finds the same in the
test of a loop, and its own notes do not disturb the relation. -/
structure Machine.Masks (related : Machine → Machine → Prop) : Prop where
  zero : ∀ m m', related m m' → (m'.get = 0 ↔ m.get = 0)
  record : ∀ m m' (event : Event), event.isOfCommand = false → related m m' →
    related (m.record event) (m'.record event)

namespace Execution

/-- States of two runs at the same instruction and in the same loops. -/
structure Parallel (related : Machine → Machine → Prop) (c d : Configuration) : Prop where
  index : d.index = c.index
  calls : d.calls = c.calls
  steps : d.steps = c.steps
  machine : related c.machine d.machine

/-- Two runs that have come equally far, both to related states. -/
inductive InStep (related : Configuration → Configuration → Prop) : Progress → Progress → Prop
  | running {c d : Configuration} (states : related c d) :
      InStep related (.running c) (.running d)
  | halted {result : Except ExecutionError Unit} {c d : Configuration} (states : related c d) :
      InStep related (.halted result c) (.halted result d)

variable {related : Machine → Machine → Prop} {text : List Char} {program : Program}
  {registry : Registry} {c d : Configuration}

theorem InStep.mono {weaker : Machine → Machine → Prop} {first second : Progress}
    (in_step : InStep (Parallel related) first second)
    (implies : ∀ m m', related m m' → weaker m m') : InStep (Parallel weaker) first second := by
  cases in_step with
  | running states => exact .running { states with machine := implies _ _ states.machine }
  | halted states => exact .halted { states with machine := implies _ _ states.machine }

theorem InStep.index_eq {first second : Progress}
    (in_step : InStep (Parallel related) first second) :
    second.state.index = first.state.index := by
  cases in_step with
  | running states => exact states.index
  | halted states => exact states.index

/-- Each step of one run is one of the other, if the command that it may be keeps the
machines related. It is the same move at the same character, so that the rows of the two runs
tell of it in one way. -/
theorem Parallel.step (masks : Machine.Masks related) (parallel : Parallel related c d)
    (kept : ∀ name routine, text[c.index]? = some name → registry.resolve name = some routine →
      related (c.machine.performAt c.index routine) (d.machine.performAt c.index routine))
    {row : Row} {after : Configuration} (performs : Performs text registry c (.next row after)) :
    ∃ name move after', row = c.row name move after ∧
      Performs text registry d (.next (d.row name move after') after') ∧
      Parallel related after after' := by
  obtain ⟨index, calls, steps, machine⟩ := parallel
  have further : d.steps + 1 = c.steps + 1 := by rw [steps]
  have same_test := masks.zero _ _ machine
  cases performs with
  | command name routine read resolved =>
    refine ⟨name, _, _, rfl, .command name routine (index ▸ read) resolved, ?_, calls, further, ?_⟩
    · exact congrArg (· + 1) index
    · rw [Configuration.performed, Configuration.performed, index]
      exact kept name routine read resolved
  | enter close read found nonzero =>
    refine ⟨_, _, _, rfl, .enter close (index ▸ read) (index ▸ found) (mt same_test.mp nonzero),
      ?_, ?_, further, ?_⟩
    · exact congrArg (· + 1) index
    · rw [Configuration.entered, Configuration.entered, index, calls]
    · rw [Configuration.entered, Configuration.entered, index]
      exact masks.record _ _ _ rfl machine
  | skip close read found zero =>
    refine ⟨_, _, _, rfl, .skip close (index ▸ read) (index ▸ found) (same_test.mpr zero), rfl,
      calls, further, ?_⟩
    rw [Configuration.skipped, Configuration.skipped, index]
    exact masks.record _ _ _ rfl machine
  | back header outer read calls_eq =>
    exact ⟨_, _, _, rfl, .back header outer (index ▸ read) (calls.trans calls_eq), rfl, rfl,
      further, machine⟩

/-- Where one run ends the other does, with the same result. -/
theorem Parallel.halt {result : Except ExecutionError Unit} (parallel : Parallel related c d)
    (performs : Performs text registry c (.halt result c)) :
    Performs text registry d (.halt result d) := by
  obtain ⟨index, calls, -, -⟩ := parallel
  cases performs with
  | finish ended => exact .finish (index ▸ ended)
  | unmatchedOpen read alone =>
    rw [← index] at read alone ⊢
    exact .unmatchedOpen read alone
  | unmatchedClose read empty =>
    rw [← index] at read ⊢
    exact .unmatchedClose read (calls.trans empty)
  | unknown name read unresolved ne_open ne_close =>
    rw [← index] at read ⊢
    exact .unknown name read unresolved ne_open ne_close

/-- The runs are in step for as long as the first comes through states only in which
commands keep the machines related. -/
theorem Parallel.inStep {safe : Configuration → Prop} (masks : Machine.Masks related)
    (kept : ∀ c d name routine, Parallel related c d → safe c →
      program.toList[c.index]? = some name → registry.resolve name = some routine →
      related (c.machine.performAt c.index routine) (d.machine.performAt c.index routine))
    (n : Nat) (parallel : Parallel related c d)
    (safely : ∀ k < n, ∀ passed, advance program registry k c = .running passed → safe passed) :
    InStep (Parallel related) (advance program registry n c) (advance program registry n d) := by
  induction n generalizing c d with
  | zero => exact .running parallel
  | succ n ih =>
    obtain ⟨outcome, performs⟩ := exists_performs program.toList registry c
    cases outcome with
    | next row after =>
      have here : safe c := safely 0 (Nat.succ_pos n) c rfl
      obtain ⟨_, _, after', -, performs', behind⟩ := parallel.step masks
        (fun name routine read resolved => kept c d name routine parallel here read resolved)
        performs
      rw [advance_succ_of_next performs, advance_succ_of_next performs']
      refine ih behind fun k lt passed run => safely (k + 1) (Nat.succ_lt_succ lt) passed ?_
      rwa [advance_succ_of_next performs]
    | halt result final =>
      obtain rfl := performs.final_eq
      rw [advance_succ_of_halt performs, advance_succ_of_halt (parallel.halt performs)]
      exact .halted parallel

end Execution

namespace Interpreter

open Execution

variable {related : Machine → Machine → Prop} {i j : Interpreter} {code : String}

/-- The executions of one program by two interpreters are in step after `n` steps. -/
def InStepAfter (related : Machine → Machine → Prop) (i j : Interpreter) (code : String)
    (n : Nat) : Prop :=
  InStep (Parallel related)
    (advance (Program.ofString code) i.registry n (i.initial code))
    (advance (Program.ofString code) j.registry n (j.initial code))

/-- The executions of a plain program are in step if the machines are related where they
begin and every primitive command keeps them so. -/
theorem inStep_of_primitives (masks : Machine.Masks related)
    (understood : i.registry.Understands code.toList) (registry : j.registry = i.registry)
    (begin_related : related (i.initial code).machine (j.initial code).machine)
    (kept : ∀ (p : Primitive) (position : Nat) (m m' : Machine), related m m' →
      related (m.performAt position p.routine) (m'.performAt position p.routine)) (n : Nat) :
    i.InStepAfter related j code n := by
  have begins : Parallel related (i.initial code) (j.initial code) :=
    ⟨rfl, rfl, rfl, begin_related⟩
  have keeps (c d : Configuration) (name : Char) (routine : Routine)
      (parallel : Parallel related c d) (_ : True)
      (read : (Program.ofString code).toList[c.index]? = some name)
      (resolved : i.registry.resolve name = some routine) :
      related (c.machine.performAt c.index routine) (d.machine.performAt c.index routine) := by
    obtain ⟨p, -, rfl⟩ := understood.exists_primitive (List.mem_of_getElem? read) resolved
    exact kept p c.index c.machine d.machine parallel.machine
  rw [InStepAfter, registry]
  exact begins.inStep masks keeps n fun _ _ _ _ => trivial

/-- Runs in step make executions that are both still running with so many steps, or have
both ended in the same way. -/
theorem execute_of_inStep (masks : Machine.Masks related) {fuel : Nat}
    (together : i.InStepAfter related j code fuel) :
    (i.execute fuel code = none ∧ j.execute fuel code = none) ∨
    ∃ result after after', i.execute fuel code = some (result, after) ∧
      j.execute fuel code = some (result, after') ∧ after.registry = i.registry ∧
      after'.registry = j.registry ∧ related after.machine after'.machine := by
  rw [execute_eq, execute_eq]
  unfold InStepAfter at together
  generalize advance (Program.ofString code) i.registry fuel (i.initial code) = progress
    at together ⊢
  generalize advance (Program.ofString code) j.registry fuel (j.initial code) = progress'
    at together ⊢
  cases together with
  | running => exact .inl ⟨rfl, rfl⟩
  | halted states =>
    refine .inr ⟨_, _, _, rfl, rfl, rfl, rfl, ?_⟩
    rw [states.steps]
    exact masks.record _ _ _ (isOfCommand_closing _ _) states.machine

/-- An execution that ends goes with one that ends in the same way. -/
theorem exists_executes_of_inStep (masks : Machine.Masks related)
    (in_step : ∀ n, i.InStepAfter related j code n) {result : Except ExecutionError Unit}
    {after : Interpreter} (executed : i.Executes code result after) :
    ∃ after', j.Executes code result after' ∧ after'.registry = j.registry ∧
      related after.machine after'.machine := by
  obtain ⟨fuel, executed⟩ := executed
  rcases execute_of_inStep masks (in_step fuel) with
    ⟨running, -⟩ | ⟨other, left, after', executed', executes, -, registry, machines⟩
  · rw [running] at executed
    cases executed
  · rw [executed'] at executed
    cases executed
    exact ⟨after', ⟨fuel, executes⟩, registry, machines⟩

/-- Executions that are always in step end both or not at all. -/
theorem terminates_iff_of_inStep (masks : Machine.Masks related)
    (in_step : ∀ n, i.InStepAfter related j code n) : i.Terminates code ↔ j.Terminates code := by
  constructor
  · rintro ⟨result, after, executed⟩
    obtain ⟨after', executes, -⟩ := exists_executes_of_inStep masks in_step executed
    exact ⟨result, after', executes⟩
  · rintro ⟨result, after', fuel, executed⟩
    rcases execute_of_inStep masks (in_step fuel) with ⟨-, running⟩ | ⟨other, after, -, executes, -⟩
    · rw [running] at executed
      cases executed
    · exact ⟨other, after, fuel, executes⟩

end Interpreter

end RingTape
