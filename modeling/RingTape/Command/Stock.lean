/-
# The stock commands

Three ready-made commands that a machine understands once they are registered:
doubling, halving toward zero and clearing the current cell.
-/

import RingTape.Command.Routine

namespace RingTape

/-- The ready-made commands. -/
inductive Stock
  | double
  | halve
  | clear
  deriving DecidableEq, Repr

namespace Stock

/-- The stock commands in the order in which they are registered. -/
def all : List Stock := [.double, .halve, .clear]

/-- The name a stock command is registered under. -/
def symbol : Stock → Char
  | .double => '*'
  | .halve => '/'
  | .clear => '_'

/-- The stock command of a name. -/
def ofSymbol? : Char → Option Stock
  | '*' => some .double
  | '/' => some .halve
  | '_' => some .clear
  | _ => none

theorem ofSymbol?_symbol (s : Stock) : ofSymbol? s.symbol = some s := by cases s <;> rfl

/-- What a stock command does. -/
def routine : Stock → Routine
  | .double => .update (· * 2)
  | .halve => .update (· / 2)
  | .clear => .set 0 .done

end Stock

end RingTape
