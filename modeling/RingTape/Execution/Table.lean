/-
# The table of a run

A traced run writes a table with a row for every step that was completed. A row
has the number of the step, the position, pointer and cell before the step, the
character, and in words what it did. Columns are filled up with spaces and never
cut.
-/

import RingTape.Execution.Step

namespace RingTape.Execution

/-- A text in a column, filled up with spaces on the right to a width in characters. -/
def column (width : Nat) (s : String) : String := String.ofList (s.toList.rightpad width ' ')

/-- The two lines above the rows. -/
def tableHeader : List String :=
  ["STEP | IP  | PTR | CELL | INSTR | ACTION\n",
   "-----+-----+-----+------+-------+------------------------------------------------\n"]

namespace Row

/-- In words what a command did. -/
def commandAction (row : Row) : String :=
  let change := "cell[" ++ toString row.pointer ++ "] from " ++ toString row.cell.toInt ++
    " to " ++ toString row.cellAfter.toInt
  match Builtin.ofSymbol? row.instruction with
  | some .right | some .left =>
    "Moved pointer head to index " ++ toString row.pointerAfter
  | some .increment => "Increment " ++ change
  | some .decrement => "Decrement " ++ change
  | some .output => "Output value " ++ toString row.cellAfter.toInt
  | some .input =>
    "Read input -> cell[" ++ toString row.pointerAfter ++ "] " ++
      (if row.cellAfter = row.cell then "unchanged (" ++ toString row.cellAfter.toInt ++ ")"
       else "= " ++ toString row.cellAfter.toInt)
  | none =>
    "Custom command '" ++ row.instruction.toString ++ "': ptr " ++ toString row.pointer ++
      " -> " ++ toString row.pointerAfter ++ ", cell " ++ toString row.cell.toInt ++
      " -> " ++ toString row.cellAfter.toInt

/-- In words what a step did. -/
def action (row : Row) : String :=
  match row.move with
  | .command => row.commandAction
  | .enter close =>
    "Cell != 0; enter loop (matching ']' at IP " ++ toString close ++ ")"
  | .skip close => "Cell is 0; jump past matching ']' at IP " ++ toString close
  | .back header => "Return to loop header at IP " ++ toString header

/-- A row as a line of the table. -/
def line (row : Row) : String :=
  column 4 (toString row.step) ++ " | " ++
    column 3 (toString row.index) ++ " | " ++
    column 3 (toString row.pointer) ++ " | " ++
    column 4 (toString row.cell.toInt) ++ " |  " ++
    row.instruction.toString ++ "    | " ++ row.action ++ "\n"

end Row

end RingTape.Execution
