/-
# The settings file

A settings file is a TOML document whose entry `interpreter` is a layer of
settings: a table with an entry for each setting it gives, or an array that gives
them in order. Names that are not known are passed over, and so is a time in the
place of the table. A known name with a value of another kind makes the whole
file unusable.
-/

import RingTape.Main.Toml.Document
import RingTape.Settings.Resolve

namespace RingTape

namespace Toml.Value

/-- A value without content, which stands beside the name of a choice. -/
def isEmpty : Value → Bool
  | .table _ [] => true
  | .array [] => true
  | _ => false

/-- A size. -/
def size? : Value → Option Nat
  | .integer n => if 0 ≤ n ∧ n ≤ Decimal.maxSize then some n.toNat else none
  | _ => none

/-- A truth value. -/
def boolean? : Value → Option Bool
  | .boolean b => some b
  | _ => none

/-- One of several named choices: its name, or a table that holds nothing but an
entry of that name without content. -/
def choice? {α : Type} (ofName? : String → Option α) : Value → Option α
  | .string name => ofName? name
  | .table _ [(name, content)] => if content.isEmpty then ofName? name else none
  | _ => none

end Toml.Value

namespace Overrides

open Toml

/-- A setting that is absent, or present with a value of the right kind. -/
def checked {α : Type} (read : Value → Option α) : Option Value → Option (Option α)
  | none => some none
  | some v => (read v).map some

/-- The layer whose four values are found by a function. -/
def ofValues? (tapeSize cellMode output extensions : Option Value) : Option Overrides := do
  return {
    tapeSize := ← checked Value.size? tapeSize
    cellMode := ← checked (Value.choice? CellMode.ofName?) cellMode
    output := ← checked (Value.choice? OutputFormat.ofName?) output
    extensions := ← checked Value.boolean? extensions }

/-- The layer that a list of values gives in order. -/
def ofItems? (vs : List Value) : Option Overrides := ofValues? vs[0]? vs[1]? vs[2]? vs[3]?

/-- The layer that a value describes. -/
def ofValue? : Value → Option Overrides
  | .table _ es =>
    ofValues? (es.lookup "tape_size") (es.lookup "cell_mode") (es.lookup "output")
      (es.lookup "extensions")
  | .array vs => ofItems? vs
  | .tables earlier last => ofItems? (tableItems earlier last)
  | .time => some {}
  | _ => none

/-- The layer that the text of a settings file gives. -/
def ofText? (text : String) : Option Overrides := do
  let entries ← document? text
  match entries.lookup "interpreter" with
  | none => some {}
  | some v => ofValue? v

end Overrides

/-- The layer that the text of a settings file gives, or a word on why it gives none. -/
def Overrides.ofText (text : String) : Except String Overrides :=
  match ofText? text with
  | some layer => .ok layer
  | none => .error "not a table of settings in TOML"

namespace Settings

/-- The directory that settings are kept in: the one that the environment names, else the usual
one below the home directory. -/
def usualHome (env : Environment) : Option String :=
  match env "XDG_CONFIG_HOME" with
  | some directory => some directory
  | none => (env "HOME").map fun home => joinPath home ".config"

end Settings

end RingTape
