/-
# Routines

What a command does is a routine: a finite course of machine operations, each of
which may depend on what the earlier ones saw. A routine can move the pointer,
look at the tape, store, reset, put out numbers, read lines and report problems.
It can also keep numbers of its own between its runs, in numbered slots that
nothing else touches. It cannot reach the table of commands or the program, so
no command changes what another one means.
-/

import RingTape.Channel.Diagnostic
import RingTape.Channel.Source
import RingTape.Tape.Basic

namespace RingTape

/-- A course of machine operations. -/
inductive Routine
  | done
  | forward (next : Routine)
  | back (next : Routine)
  | get (next : Int64 → Routine)
  | inspect (next : Tape → Routine)
  | set (value : Int64) (next : Routine)
  | reset (next : Routine)
  | emit (value : Int64) (next : Routine)
  | readLine (next : Reading → Routine)
  | report (problem : InputProblem) (next : Routine)
  | retrieve (slot : Nat) (next : Int64 → Routine)
  | keep (slot : Nat) (value : Int64) (next : Routine)

namespace Routine

instance : Inhabited Routine := ⟨done⟩

/-- Perform one routine and then another. -/
def andThen : Routine → Routine → Routine
  | done, second => second
  | forward next, second => forward (next.andThen second)
  | back next, second => back (next.andThen second)
  | get next, second => get fun value => (next value).andThen second
  | inspect next, second => inspect fun tape => (next tape).andThen second
  | set value next, second => set value (next.andThen second)
  | reset next, second => reset (next.andThen second)
  | emit value next, second => emit value (next.andThen second)
  | readLine next, second => readLine fun reading => (next reading).andThen second
  | report problem next, second => report problem (next.andThen second)
  | retrieve slot next, second => retrieve slot fun value => (next value).andThen second
  | keep slot value next, second => keep slot value (next.andThen second)

/-- Replace the number in the current cell by a function of it. -/
def update (f : Int64 → Int64) : Routine := get fun value => set (f value) done

end Routine

end RingTape
