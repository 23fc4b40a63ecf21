/-
# The commands of the program

The program has two commands: one runs a program and one opens a session. Here is what
may be asked of each.
-/

import RingTape.Journal.Event
import RingTape.Settings.Basic

namespace RingTape.CommandLine

/-- What is asked of a run. -/
structure RunArguments where
  help : Bool := false
  debug : Bool := false
  file : Option String := none
  code : List String := []
  overrides : Overrides := {}
  deriving DecidableEq, Repr

/-- What is asked of a session. -/
structure SessionArguments where
  help : Bool := false
  mode : Option SessionMode := none
  overrides : Overrides := {}
  deriving DecidableEq, Repr

/-- What is asked of the program. -/
inductive Command
  | help
  | run (arguments : RunArguments)
  | session (arguments : SessionArguments)
  deriving DecidableEq, Repr

end RingTape.CommandLine
