/-
# Errors that end a run

Three things end a run before its program does: a character that is no command,
an opening marker without a partner, and a closing marker that no open loop waits
for. Each carries the position at which it was met, counted in characters from 0.
-/

import RingTape.Text.Decimal

namespace RingTape

/-- Why a run ended before its program did. -/
inductive ExecutionError
  | unknownCommand (name : Char) (position : Nat)
  | unmatchedOpen (position : Nat)
  | unmatchedClose (position : Nat)
  deriving DecidableEq, Repr

namespace ExecutionError

/-- The position an error refers to. -/
def position : ExecutionError → Nat
  | .unknownCommand _ p => p
  | .unmatchedOpen p => p
  | .unmatchedClose p => p

/-- The wording of an error, with its position. -/
def message : ExecutionError → String
  | .unknownCommand name p =>
    "unknown command '" ++ name.toString ++ "' at position " ++ toString p
  | .unmatchedOpen p => "no matching ']' for the loop opened at position " ++ toString p
  | .unmatchedClose p => "']' at position " ++ toString p ++ " has no matching '['"

end ExecutionError

end RingTape
