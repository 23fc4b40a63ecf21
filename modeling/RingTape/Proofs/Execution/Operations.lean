/-
# Sessions

An interpreter is used by one operation after the other: programs are executed, also such
that end in an error half way, commands come and go, channels are replaced, and routines
are performed between the programs. Whatever the operations are and whatever order they
come in, the tape stays one of the size and mode that the interpreter was built with, and
between two operations no command is running. Before every instruction of a program the
same holds, so also programs that never end can rely on it.
-/

import Mathlib.Logic.Relation
import RingTape.Proofs.Command.Registration
import RingTape.Proofs.Execution.Stepping
import RingTape.Proofs.Machine.Soundness

namespace RingTape

open Execution

variable {size : Nat} {mode : CellMode}

namespace Execution

variable {text : List Char} {registry : Registry} {c : Configuration}

/-- A step leaves the machine settled: a command gives back the position that it was
given. -/
theorem settled_of_performs (c : Configuration) (row : Row) (after : Configuration)
    (settled : c.machine.Settled size mode)
    (performs : Performs text registry c (.next row after)) : after.machine.Settled size mode := by
  cases performs with
  | command name routine read resolved => exact ⟨Machine.sound_perform routine settled.tape, rfl⟩
  | enter close read found nonzero => exact ⟨settled.tape, settled.position⟩
  | skip close read found zero => exact ⟨settled.tape, settled.position⟩
  | back header outer read calls => exact settled

/-- What is written to the journal does not unsettle the machine. -/
theorem settled_apart (c : Configuration) (journal : Journal)
    (settled : c.machine.Settled size mode) :
    { c.machine with journal }.Settled size mode :=
  ⟨settled.tape, settled.position⟩

end Execution

namespace Interpreter

variable {i j after : Interpreter} {code : String} {result : Except ExecutionError Unit} {n : Nat}
  {c : Configuration} {ω : Type} {tracer : Tracer ω} {w w' : ω}

/-! ## Programs -/

/-- Before every instruction of a program the machine is settled, if it was at first. -/
theorem settled_of_reaches (settled : i.machine.Settled size mode) (reached : i.Reaches code n c) :
    c.machine.Settled size mode := by
  have started : (i.initial code).machine.Settled size mode :=
    ⟨settled.tape, settled.position⟩
  exact invariant_of_advance settled_of_performs started reached

/-- Execution leaves it so, whether it ended well or with an error. -/
theorem settled_of_executes (settled : i.machine.Settled size mode)
    (executed : i.Executes code result after) : after.machine.Settled size mode := by
  obtain ⟨n, c, reached, -, rfl⟩ := executes_iff.mp executed
  have last := settled_of_reaches settled reached
  exact ⟨last.tape, last.position⟩

/-- The same of a traced run, wherever it has come to. -/
theorem settled_advanceTraced (tracer : Tracer ω) (code : String) (w : ω) (n : Nat)
    (settled : i.machine.Settled size mode) :
    (advanceTraced tracer (Program.ofString code) i.registry n
      (.start (i.begun tracer code w).1) (i.begun tracer code w).2).1.state.machine.Settled
        size mode := by
  have started : (Configuration.start (i.begun tracer code w).1).machine.Settled size mode :=
    ⟨settled.tape, settled.position⟩
  exact invariant_of_advanceTraced settled_of_performs settled_apart n _ started

theorem settled_of_reachesTraced (settled : i.machine.Settled size mode)
    (reached : i.ReachesTraced tracer code w n c w') : c.machine.Settled size mode := by
  have come := settled_advanceTraced tracer code w n settled
  rw [reached] at come
  exact come

theorem settled_of_executesTraced (settled : i.machine.Settled size mode)
    (executed : i.ExecutesTraced tracer code w result after w') :
    after.machine.Settled size mode := by
  obtain ⟨n, executed⟩ := executed
  have come := settled_advanceTraced tracer code w n settled
  rw [executeTraced_eq] at executed
  cases run : (advanceTraced tracer (Program.ofString code) i.registry n
      (.start (i.begun tracer code w).1) (i.begun tracer code w).2).1 with
  | running state =>
    rw [run] at executed
    cases executed
  | halted result final =>
    rw [run] at executed come
    cases executed
    exact ⟨come.tape, come.position⟩

/-! ## Operations -/

/-- One operation on an interpreter, from what it was to what it is then. A registration
or removal that is refused is an operation too, and changes nothing. -/
inductive Operates (i : Interpreter) : Interpreter → Prop
  | execute {after : Interpreter} {code : String} {result : Except ExecutionError Unit}
      (executed : i.Executes code result after) : Operates i after
  | executeTraced {ω : Type} {tracer : Tracer ω} {w w' : ω} {after : Interpreter}
      {code : String} {result : Except ExecutionError Unit}
      (executed : i.ExecutesTraced tracer code w result after w') : Operates i after
  | add (name : Char) (routine : Routine) : Operates i ((i.add name routine).toOption.getD i)
  | remove (name : Char) : Operates i ((i.remove name).toOption.getD i)
  | addStock : Operates i i.addStock.2
  | reset : Operates i i.reset
  | setSink (sink : Sink) : Operates i (i.setSink sink)
  | setSource (source : Source) : Operates i (i.setSource source)
  | setHook : Operates i i.setHook
  | perform (routine : Routine) : Operates i (i.perform routine)

/-- Registering a command touches no more of the machine than its journal. -/
theorem settled_add (settled : i.machine.Settled size mode) {name : Char} {routine : Routine}
    (added : i.add name routine = .ok after) : after.machine.Settled size mode := by
  obtain ⟨registry, -, rfl⟩ := exists_of_map_ok added
  exact ⟨settled.tape, settled.position⟩

/-- Nor does removing one. -/
theorem settled_remove (settled : i.machine.Settled size mode) {name : Char}
    (removed : i.remove name = .ok after) : after.machine.Settled size mode := by
  obtain ⟨registry, -, rfl⟩ := exists_of_map_ok removed
  exact ⟨settled.tape, settled.position⟩

/-- Also a list of registrations that is broken off leaves the machine settled. -/
theorem settled_addAll (commands : List (Char × Routine))
    (settled : i.machine.Settled size mode) :
    (addAll commands i).2.machine.Settled size mode := by
  induction commands generalizing i with
  | nil => exact settled
  | cons command rest ih =>
    rw [addAll]
    cases added : i.add command.1 command.2 with
    | error e => exact settled
    | ok after => exact ih (settled_add settled added)

/-- Every operation leaves a settled machine settled. -/
theorem Operates.settled (operates : Operates i j) (settled : i.machine.Settled size mode) :
    j.machine.Settled size mode := by
  cases operates with
  | execute executed => exact settled_of_executes settled executed
  | executeTraced executed => exact settled_of_executesTraced settled executed
  | add name routine =>
    cases added : i.add name routine with
    | error e => exact settled
    | ok after => exact settled_add settled added
  | remove name =>
    cases removed : i.remove name with
    | error e => exact settled
    | ok after => exact settled_remove settled removed
  | addStock => exact settled_addAll _ settled
  | reset => exact ⟨settled.tape.reset, settled.position⟩
  | setSink sink => exact ⟨settled.tape, settled.position⟩
  | setSource source => exact ⟨settled.tape, settled.position⟩
  | setHook => exact ⟨settled.tape, settled.position⟩
  | perform routine =>
    exact ⟨Machine.sound_perform routine settled.tape,
      (Machine.position_perform routine i.machine).trans settled.position⟩

/-- A new interpreter has a blank tape, which is the one that would be built again. -/
theorem exists_blank_of_new {grants : Nat → Bool} {sink : Sink} {source : Source}
    (built : new grants size mode sink source = .ok i) :
    ∃ positive : 0 < size, Tape.new grants size mode = .ok (.blank size mode positive) ∧
      i = ofTape (.blank size mode positive) sink source := by
  obtain ⟨tape, anew, rfl⟩ := exists_of_map_ok built
  have opened := anew
  rw [Tape.new] at opened
  split at opened
  · next positive =>
    split at opened
    · cases opened
      exact ⟨positive, anew, rfl⟩
    · cases opened
  · cases opened

/-- What every operation keeps, a session keeps. -/
theorem settled_of_session (session : Relation.ReflTransGen Operates i j)
    (settled : i.machine.Settled size mode) : j.machine.Settled size mode := by
  induction session with
  | refl => exact settled
  | tail _ operates ih => exact operates.settled ih

/-- In every session the tape keeps the size and mode that it was built with, the pointer
stays on a cell and byte cells hold bytes: after each operation, and before each
instruction of a program, traced or not. Between operations no position is known, so
that nothing reported then carries one. A reset leaves all but the tape as it is, and
the tape as it would be built anew. -/
theorem session_settled {grants : Nat → Bool} {sink : Sink} {source : Source} {i j : Interpreter}
    (built : new grants size mode sink source = .ok i)
    (session : Relation.ReflTransGen Operates i j) :
    j.machine.Settled size mode ∧
    (∀ code n c, j.Reaches code n c → c.machine.Settled size mode) ∧
    (∀ (ω : Type) (tracer : Tracer ω) code w n c w', j.ReachesTraced tracer code w n c w' →
      c.machine.Settled size mode) ∧
    (∀ routine, Machine.ReportsAt none j.machine (j.perform routine).machine) ∧
    ∃ tape, Tape.new grants size mode = .ok tape ∧
      j.reset = { j with machine := { j.machine with tape } } := by
  obtain ⟨positive, anew, rfl⟩ := exists_blank_of_new built
  have settled : j.machine.Settled size mode :=
    settled_of_session session ⟨Tape.sound_blank positive, rfl⟩
  refine ⟨settled, fun _ _ _ => settled_of_reaches settled,
    fun _ _ _ _ _ _ _ => settled_of_reachesTraced settled, fun routine => ?_,
    .blank size mode positive, anew, ?_⟩
  · rw [← settled.position]
    exact Machine.reportsAt_perform routine j.machine
  · rw [reset, Machine.reset, settled.tape.reset_eq positive]

/-- A session in which an execution fails half way and a hook is installed afterwards. -/
theorem session_settled_after_error :
    let i : Interpreter := ofTape (.blank 2 .byte (by decide)) .collecting (.stream [])
    new (fun _ => true) 2 .byte .collecting (.stream []) = .ok i ∧
      ∃ after, i.Executes "<-]" (.error (.unmatchedClose 2)) after ∧
        Relation.ReflTransGen Operates i after.setHook ∧
        after.setHook.machine.Settled 2 .byte ∧
        ∀ problem, Machine.ReportsAt none after.setHook.machine
          (after.setHook.perform (.report problem .done)).machine := by
  intro i
  have built : new (fun _ => true) 2 .byte .collecting (.stream []) = .ok i := rfl
  have ended : (i.execute 3 "<-]").map Prod.fst = some (.error (.unmatchedClose 2)) := by decide
  obtain ⟨⟨result, after⟩, executed, rfl⟩ := Option.map_eq_some_iff.mp ended
  have session : Relation.ReflTransGen Operates i after.setHook :=
    .tail (.single (.execute ⟨3, executed⟩)) .setHook
  obtain ⟨settled, -, -, reports, -⟩ := session_settled built session
  exact ⟨built, after, ⟨3, executed⟩, session, settled, fun problem => reports _⟩

end Interpreter

end RingTape
