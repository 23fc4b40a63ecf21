/-
# Settings

The settings of the program and the layers that override them. A layer gives a
value to some of the four settings and leaves the others alone; layers are applied
in turn, and the last one that has a value for a setting decides it.
-/

import RingTape.Channel.Sink
import RingTape.Tape.Basic

namespace RingTape

/-- What the program is set to. -/
structure Settings where
  tapeSize : Nat := Tape.defaultSize
  cellMode : CellMode := .unbounded
  output : OutputFormat := .numbers
  extensions : Bool := false
  deriving DecidableEq, Repr, Inhabited

/-- A layer: values for some of the settings. -/
structure Overrides where
  tapeSize : Option Nat := none
  cellMode : Option CellMode := none
  output : Option OutputFormat := none
  extensions : Option Bool := none
  deriving DecidableEq, Repr, Inhabited

/-- The settings under a layer. -/
def Settings.override (s : Settings) (o : Overrides) : Settings :=
  { tapeSize := o.tapeSize.getD s.tapeSize
    cellMode := o.cellMode.getD s.cellMode
    output := o.output.getD s.output
    extensions := o.extensions.getD s.extensions }

/-- The file that settings are kept in. -/
def settingsFile : String := "tapebf.toml"

end RingTape
