/-
# Diagnostics of the input command

An input command that gets no number leaves its cell alone and says why. Such a
problem never ends a run.
-/

import RingTape.Text.Decimal
import RingTape.Text.Quoted

namespace RingTape

/-- What went wrong with one line of input. -/
inductive InputProblem
  | exhausted
  | unreadable (reason : String)
  | notANumber (line : String)
  deriving DecidableEq, Repr

/-- The wording of a problem. -/
def InputProblem.message : InputProblem → String
  | .exhausted => "no input available"
  | .unreadable reason => "failed to read input: " ++ reason
  | .notANumber line => "input " ++ Text.Quoted.text line ++ " is not a base-10 integer"

/-- A problem and, when a program was running, the position of the command that
met it. -/
structure Diagnostic where
  position : Option Nat
  problem : InputProblem
  deriving DecidableEq, Repr

/-- The wording of a diagnostic. -/
def Diagnostic.message (d : Diagnostic) : String :=
  d.problem.message ++
    match d.position with
    | some p => " (at position " ++ toString p ++ ")"
    | none => ""

end RingTape
