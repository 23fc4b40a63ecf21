/-
# Settings from the environment

Four variables give a layer of settings. A variable with a value that cannot be
used is noted and counts as absent.
-/

import RingTape.Journal.Event
import RingTape.Settings.Basic

namespace RingTape

/-- The variables of the environment. -/
abbrev Environment := String → Option String

/-- Read a truth value, between blanks. -/
def readSwitch (value : String) : Except String Bool :=
  let word := Text.trim value
  if word = "1" ∨ word = "true" then .ok true
  else if word = "0" ∨ word = "false" then .ok false
  else .error ("expected 1/0/true/false, got '" ++ word ++ "'")

/-- Read a size, between blanks. -/
def readSize (value : String) : Except String Nat :=
  (Decimal.size? (Text.trim value)).mapError Decimal.ReadError.message

namespace Environment

/-- The value of a variable, and what is noted if it has one that cannot be used. -/
def read {α : Type} (env : Environment) (name : String) (parse : String → Except String α) :
    Option α × List Event :=
  match env name with
  | none => (none, [])
  | some value =>
    match parse value with
    | .ok a => (some a, [])
    | .error e => (none, [.variableIgnored name value e])

/-- The layer that the environment gives, and what is noted on the way. -/
def layer (env : Environment) : Overrides × List Event :=
  let (tapeSize, a) := env.read "TAPEBF_TAPE_SIZE" readSize
  let (cellMode, b) := env.read "TAPEBF_CELL_MODE" CellMode.read
  let (output, c) := env.read "TAPEBF_OUTPUT" OutputFormat.read
  let (extensions, d) := env.read "TAPEBF_EXTENSIONS" readSwitch
  ({ tapeSize, cellMode, output, extensions }, a ++ b ++ c ++ d)

end Environment

end RingTape
