/-
# Runs

A run repeats the step until it halts. A program need not halt, so a run is given
a number of steps that it may take, and answers with the state it is in if it has
not halted by then. A traced run takes the same steps and hands the lines of its
table to a tracer. The tracer keeps a state of its own, may print to the journal,
and has no way to answer.
-/

import RingTape.Execution.Table

namespace RingTape.Execution

/-- How far a run has come. -/
inductive Progress
  | running (state : Configuration)
  | halted (result : Except ExecutionError Unit) (final : Configuration)

/-- Take up to a number of steps. -/
def advance (program : Program) (registry : Registry) : Nat → Configuration → Progress
  | 0, state => .running state
  | fuel + 1, state =>
    match step program registry state with
    | .next _ after => advance program registry fuel after
    | .halt result final => .halted result final

/-- Where the table of a run goes: `write` takes a piece of its text into a state
of its own and into the journal. -/
structure Tracer (ω : Type) where
  write : String → Journal × ω → Journal × ω

namespace Tracer

/-- A tracer that fills a writer and leaves the journal alone. Text that does not
fit is lost. -/
def toWriter : Tracer Writer :=
  ⟨fun text (journal, writer) => (journal, (writer.write (Utf8.encode text)).1)⟩

/-- A tracer that prints between the events of the journal. -/
def toJournal : Tracer Unit := ⟨fun text (journal, _) => (journal.print text, ())⟩

/-- Hand a piece of text to a tracer. -/
def onMachine {ω : Type} (tracer : Tracer ω) (text : String) :
    Machine → ω → Machine × ω
  | machine, w =>
    let (journal, w) := tracer.write text (machine.journal, w)
    ({ machine with journal }, w)

/-- Hand the header of the table to a tracer. -/
def begin {ω : Type} (tracer : Tracer ω) (machine : Machine) (w : ω) : Machine × ω :=
  tableHeader.foldl (fun (machine, w) text => tracer.onMachine text machine w) (machine, w)

end Tracer

/-- Take up to a number of steps and hand a row to the tracer after each. -/
def advanceTraced {ω : Type} (tracer : Tracer ω) (program : Program) (registry : Registry) :
    Nat → Configuration → ω → Progress × ω
  | 0, state, w => (.running state, w)
  | fuel + 1, state, w =>
    match step program registry state with
    | .next row ⟨index, calls, steps, machine⟩ =>
      let (machine, w) := tracer.onMachine row.line machine w
      advanceTraced tracer program registry fuel ⟨index, calls, steps, machine⟩ w
    | .halt result final => (.halted result final, w)

end RingTape.Execution
