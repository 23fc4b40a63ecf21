/-
# The six built-in commands

Every machine understands six commands: two moves, two steps of one, output and
input. Arithmetic wraps at 64 bits. Input takes one line and stores the number on
it; a line that holds none is reported without its ending and leaves the cell as
it was.
-/

import RingTape.Command.Routine

namespace RingTape

/-- The commands every machine understands, in the order of the instruction set. -/
inductive Builtin
  | right
  | left
  | increment
  | decrement
  | output
  | input
  deriving DecidableEq, Repr

namespace Builtin

/-- The instruction set in order. -/
def all : List Builtin := [.right, .left, .increment, .decrement, .output, .input]

/-- The character a command is written with. -/
def symbol : Builtin → Char
  | .right => '>'
  | .left => '<'
  | .increment => '+'
  | .decrement => '-'
  | .output => '.'
  | .input => ','

/-- The command that a character is written for. -/
def ofSymbol? : Char → Option Builtin
  | '>' => some .right
  | '<' => some .left
  | '+' => some .increment
  | '-' => some .decrement
  | '.' => some .output
  | ',' => some .input
  | _ => none

theorem ofSymbol?_symbol (b : Builtin) : ofSymbol? b.symbol = some b := by cases b <;> rfl

/-- Commands are told apart by their characters. -/
theorem symbol_inj {b b' : Builtin} : b.symbol = b'.symbol ↔ b = b' := by
  constructor
  · intro same
    have spelled := ofSymbol?_symbol b
    rw [same, ofSymbol?_symbol] at spelled
    exact (Option.some.inj spelled).symm
  · exact congrArg symbol

/-- The character of a command is the one that it is written with. -/
theorem eq_symbol_of_ofSymbol? {name : Char} {b : Builtin} (spelled : ofSymbol? name = some b) :
    name = b.symbol := by
  unfold ofSymbol? at spelled
  split at spelled <;> cases spelled <;> rfl

/-- The number on a line of input, between blanks. -/
def lineNumber? (line : String) : Option Int64 := Decimal.int64? (Text.trimList line.toList)

/-- What the input command does with the answer to its reading. -/
def takeReading : Reading → Routine
  | .ok none => .report .exhausted .done
  | .error e => .report (.unreadable e.message) .done
  | .ok (some line) =>
    match lineNumber? (Text.trimLineEnd line) with
    | some value => .set value .done
    | none => .report (.notANumber (Text.trimLineEnd line)) .done

/-- What a built-in command does. -/
def routine : Builtin → Routine
  | .right => .forward .done
  | .left => .back .done
  | .increment => .update (· + 1)
  | .decrement => .update (· - 1)
  | .output => .get fun value => .emit value .done
  | .input => .readLine takeReading

end Builtin

end RingTape
