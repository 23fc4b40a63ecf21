/-
# A view of the tape

The page of the tape that holds the pointer, on one line, with the cell at the
pointer between brackets.
-/

import RingTape.Tape.Basic

namespace RingTape.Tape

/-- How many cells a view shows at most. -/
def viewSize : Nat := 16

/-- The cells of a page, the one at the pointer between brackets. -/
def viewCells (t : Tape) (base : Nat) (cells : List Int64) : List String :=
  cells.mapIdx fun k value =>
    let number := toString value.toInt
    if base + k = t.pointer then "[" ++ number ++ "]" else number

/-- The line that shows the cells around the pointer. -/
def view (t : Tape) : String :=
  let (base, cells) := t.window viewSize
  "ptr=" ++ toString t.pointer ++ " cells[" ++ toString base ++ ".." ++
    toString (base + cells.size) ++ "]: " ++
    " ".intercalate (t.viewCells base cells.toList) ++ "\n"

end RingTape.Tape
