/-
# One step of a run

A run walks a program with an index and a stack of the loops it is in. One step
looks at the character under the index. A command runs its routine and moves on.
An opening marker finds its partner first, whatever the cell holds; then it
enters the loop if the cell is not zero and goes past the partner if it is. A
closing marker goes back to the marker of the innermost open loop. A step that
succeeds yields a row, which tells what was seen before it and after it.
-/

import RingTape.Execution.Program
import RingTape.Machine

namespace RingTape.Execution

/-- The state of a run. `calls` holds the positions of the opening markers of the
loops being run, the innermost first. -/
structure Configuration where
  index : Nat
  calls : List Nat
  steps : Nat
  machine : Machine

/-- The state in which a run starts. -/
def Configuration.start (machine : Machine) : Configuration :=
  { index := 0, calls := [], steps := 0, machine }

/-- The way an instruction moves on. -/
inductive Move
  | command
  | enter (close : Nat)
  | skip (close : Nat)
  | back (header : Nat)
  deriving DecidableEq, Repr

/-- The account of one step: its number, the place and the character, pointer and
cell before it, how it moved on, pointer and cell after it. -/
structure Row where
  step : Nat
  index : Nat
  pointer : Nat
  cell : Int64
  instruction : Char
  move : Move
  pointerAfter : Nat
  cellAfter : Int64
  deriving DecidableEq, Repr

/-- What a step leads to: another state, or the end of the run. -/
inductive Outcome
  | next (row : Row) (after : Configuration)
  | halt (result : Except ExecutionError Unit) (final : Configuration)

/-- Perform the instruction under the index. -/
def step (program : Program) (registry : Registry) : Configuration → Outcome
  | ⟨index, calls, steps, machine⟩ =>
    match program[index]? with
    | none => .halt (.ok ()) ⟨index, calls, steps, machine⟩
    | some instruction =>
      let pointer := machine.tape.pointer
      let cell := machine.get
      match registry.resolve instruction with
      | some routine =>
        let machine := machine.performAt index routine
        let row : Row :=
          { step := steps, index, pointer, cell, instruction, move := .command,
            pointerAfter := machine.tape.pointer, cellAfter := machine.get }
        .next row ⟨index + 1, calls, steps + 1, machine⟩
      | none =>
        let row (move : Move) : Row :=
          { step := steps, index, pointer, cell, instruction, move,
            pointerAfter := pointer, cellAfter := cell }
        if instruction = loopOpen then
          match program.matchingClose index with
          | none => .halt (.error (.unmatchedOpen index)) ⟨index, calls, steps, machine⟩
          | some close =>
            if cell ≠ 0 then
              .next (row (.enter close))
                ⟨index + 1, index :: calls, steps + 1, machine.record (.loopEntered index close)⟩
            else
              .next (row (.skip close))
                ⟨close + 1, calls, steps + 1, machine.record (.loopSkipped index close)⟩
        else if instruction = loopClose then
          match calls with
          | [] => .halt (.error (.unmatchedClose index)) ⟨index, [], steps, machine⟩
          | header :: calls => .next (row (.back header)) ⟨header, calls, steps + 1, machine⟩
        else .halt (.error (.unknownCommand instruction index)) ⟨index, calls, steps, machine⟩

end RingTape.Execution
