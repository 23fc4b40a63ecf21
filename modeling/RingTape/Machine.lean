/-
# The machine

The machine is all that commands work on: the tape, the two channels, the
diagnostic hook and the journal. While a program runs it also knows the position
of the current command, which marks the diagnostics; between programs it knows
none. A refused number and a failed input are noted in the journal and change
nothing else, so neither ends a run.
-/

import RingTape.Channel.Sink
import RingTape.Command.Routine
import RingTape.Journal.Basic

namespace RingTape

/-- The state that commands work on. `hook` holds the diagnostics received by the
diagnostic hook, the newest first, or `none` when no hook is installed; `memory`
holds what routines keep between their runs. -/
structure Machine where
  tape : Tape
  sink : Sink
  source : Source
  hook : Option (List Diagnostic) := none
  position : Option Nat := none
  memory : List (Nat × Int64) := []
  journal : Journal := {}

namespace Machine

/-- The number in the current cell. -/
def get (m : Machine) : Int64 := m.tape.get

/-- Move to the next cell. -/
def forward (m : Machine) : Machine := { m with tape := m.tape.forward }

/-- Move to the cell before. -/
def back (m : Machine) : Machine := { m with tape := m.tape.back }

/-- Store a number into the current cell. -/
def set (m : Machine) (value : Int64) : Machine := { m with tape := m.tape.set value }

/-- Zero the tape and move to its first cell. -/
def reset (m : Machine) : Machine := { m with tape := m.tape.reset }

/-- Note an event. -/
def record (m : Machine) (e : Event) : Machine := { m with journal := m.journal.record e }

/-- Hand one number to the sink. A refusal is noted and otherwise ignored. -/
def emit (m : Machine) (value : Int64) : Machine :=
  match m.sink.write [value] with
  | (sink, .ok ()) => { m with sink }
  | (sink, .error e) => { m with sink, journal := m.journal.record (.sinkRejected value e) }

/-- Read one line from the source. -/
def readLine (m : Machine) : Reading × Machine :=
  let (reading, source) := m.source.read
  (reading, { m with source })

/-- Report a problem: it is noted, and handed to the hook if there is one. -/
def report (m : Machine) (problem : InputProblem) : Machine :=
  let diagnostic : Diagnostic := ⟨m.position, problem⟩
  { m with
    journal := m.journal.record (.inputFailed diagnostic)
    hook := m.hook.map (diagnostic :: ·) }

/-- The number kept in a slot; a slot that was never used holds zero. -/
def retrieve (m : Machine) (slot : Nat) : Int64 := (m.memory.lookup slot).getD 0

/-- Keep a number in a slot. -/
def keep (m : Machine) (slot : Nat) (value : Int64) : Machine :=
  { m with memory := (slot, value) :: m.memory.filter fun entry => entry.1 ≠ slot }

/-- Perform a routine. -/
def perform : Routine → Machine → Machine
  | .done, m => m
  | .forward next, m => perform next m.forward
  | .back next, m => perform next m.back
  | .get next, m => perform (next m.get) m
  | .inspect next, m => perform (next m.tape) m
  | .set value next, m => perform next (m.set value)
  | .reset next, m => perform next m.reset
  | .emit value next, m => perform next (m.emit value)
  | .readLine next, m =>
    let (reading, m) := m.readLine
    perform (next reading) m
  | .report problem next, m => perform next (m.report problem)
  | .retrieve slot next, m => perform (next (m.retrieve slot)) m
  | .keep slot value next, m => perform next (m.keep slot value)

/-- Perform a routine as the command at a position of a program. -/
def performAt (position : Nat) (routine : Routine) (m : Machine) : Machine :=
  { perform routine { m with position := some position } with position := none }

end Machine

end RingTape
