/-
# Interpreters

An interpreter is a machine and a registry of commands. The tape and everything
else of the machine survive from one execution to the next; a reset gives a
fresh tape and leaves the rest. Executions note their beginning and their end in
the journal. An execution is bounded by the number of steps it may take and is
`none` if it was still running then; with more steps it gives the same answer or
comes to one.
-/

import RingTape.Execution.Run

namespace RingTape

open Execution

/-- A machine and the commands it understands. -/
structure Interpreter where
  machine : Machine
  registry : Registry := .empty

namespace Interpreter

/-- An interpreter for a tape, with a sink for its numbers and a source of lines. -/
def ofTape (tape : Tape) (sink : Sink) (source : Source) : Interpreter :=
  { machine := { tape, sink, source } }

/-- An interpreter for a new tape. -/
def new (grants : Nat → Bool) (size : Nat) (mode : CellMode) (sink : Sink) (source : Source) :
    Except TapeError Interpreter :=
  (Tape.new grants size mode).map fun tape => ofTape tape sink source

/-- Send the numbers to another sink. -/
def setSink (i : Interpreter) (sink : Sink) : Interpreter :=
  { i with machine := { i.machine with sink } }

/-- Read lines from another source. -/
def setSource (i : Interpreter) (source : Source) : Interpreter :=
  { i with machine := { i.machine with source } }

/-- Install a diagnostic hook that has received nothing yet. -/
def setHook (i : Interpreter) : Interpreter :=
  { i with machine := { i.machine with hook := some [] } }

/-- Let the journal take what a filter passes. -/
def setFilter (i : Interpreter) (filter : LogFilter) : Interpreter :=
  { i with machine := { i.machine with journal := { i.machine.journal with filter } } }

/-- Register a custom command. -/
def add (i : Interpreter) (name : Char) (routine : Routine) : Except RegistryError Interpreter :=
  (i.registry.add name routine).map fun registry =>
    { machine := i.machine.record (.commandAdded name), registry }

/-- Remove a custom command. -/
def remove (i : Interpreter) (name : Char) : Except RegistryError Interpreter :=
  (i.registry.remove name).map fun registry =>
    { machine := i.machine.record (.commandRemoved name), registry }

/-- Register commands in order, up to the first whose name is taken. The commands
before that one stay registered. -/
def addAll : List (Char × Routine) → Interpreter → Except RegistryError Unit × Interpreter
  | [], i => (.ok (), i)
  | (name, routine) :: rest, i =>
    match i.add name routine with
    | .ok i => addAll rest i
    | .error e => (.error e, i)

/-- Register the stock commands. -/
def addStock (i : Interpreter) : Except RegistryError Unit × Interpreter :=
  addAll (Stock.all.map fun s => (s.symbol, s.routine)) i

/-- Perform a routine outside any program. -/
def perform (routine : Routine) (i : Interpreter) : Interpreter :=
  { i with machine := i.machine.perform routine }

/-- Zero the tape and move to its first cell. -/
def reset (i : Interpreter) : Interpreter := { i with machine := i.machine.reset }

/-- The event that ends an execution. -/
def closing (steps : Nat) : Except ExecutionError Unit → Event
  | .ok () => .executionFinished steps
  | .error e => .executionAborted steps e

/-- The state in which the execution of a program starts. -/
def start (machine : Machine) (program : Program) : Machine :=
  machine.record (.executionStarted program.size machine.tape.size)

/-- What an execution leaves behind. -/
def finish (registry : Registry) :
    Progress → Option (Except ExecutionError Unit × Interpreter)
  | .running _ => none
  | .halted result final =>
    some (result, { machine := final.machine.record (closing final.steps result), registry })

/-- Execute a program. -/
def execute (fuel : Nat) (code : String) : Interpreter →
    Option (Except ExecutionError Unit × Interpreter)
  | ⟨machine, registry⟩ =>
    let program := Program.ofString code
    finish registry (advance program registry fuel (.start (start machine program)))

/-- Execute a program and hand the table of its steps to a tracer. -/
def executeTraced {ω : Type} (tracer : Tracer ω) (fuel : Nat) (code : String) :
    Interpreter → ω → Option (Except ExecutionError Unit × Interpreter × ω)
  | ⟨machine, registry⟩, w =>
    let program := Program.ofString code
    let (machine, w) := tracer.begin (start machine program) w
    let (progress, w) := advanceTraced tracer program registry fuel (.start machine) w
    (finish registry progress).map fun (result, i) => (result, i, w)

end Interpreter

end RingTape
