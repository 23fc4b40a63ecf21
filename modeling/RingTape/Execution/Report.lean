/-
# Reports of errors

A report of an error has three lines: what is wrong and where, the part of the
program around that position, and a caret under the character in question. The
part reaches 32 characters to either side and is cut out of the bytes of the
program. Line breaks and tabs inside it are shown as spaces, so it stays on its
line and the caret in its column. The first line shows a character as it is, and
is broken by a newline.
-/

import RingTape.Execution.Error
import RingTape.Text.Slice

namespace RingTape.Execution

/-- How many characters a report shows on either side of a position. -/
def reportReach : Nat := 32

/-- A character as it is shown in a report. -/
def reportChar (c : Char) : Char := if c = '\n' ∨ c = '\r' ∨ c = '\t' then ' ' else c

/-- The part of a program around a position, cut out of its bytes. -/
def reportPart? (code : String) (position : Nat) : Option String :=
  let start := position - reportReach
  let stop := min (position + reportReach + 1) code.length
  Text.slice? code (Text.byteIndex code start) (Text.byteIndex code stop)

/-- The program is cut at two of its characters, or at its end where a position is behind
it, so that always succeeds. -/
theorem reportPart?_eq (code : String) (position : Nat) :
    reportPart? code position = some (String.ofList
      ((code.toList.take (position + reportReach + 1)).drop (position - reportReach))) := by
  rw [reportPart?, Text.byteIndex_min_length]
  exact Text.slice?_byteIndex code (by omega)

/-- The part of a program around a position. -/
def reportPart (code : String) (position : Nat) : String :=
  (reportPart? code position).get (Option.isSome_of_mem (reportPart?_eq code position))

/-- The three lines of a report that opens with `label`. -/
def report (label code : String) (position : Nat) : String :=
  let start := position - reportReach
  label ++ " at position " ++ toString position ++ "\n" ++
    "  " ++ String.ofList ((reportPart code position).toList.map reportChar) ++ "\n" ++
    "  " ++ String.ofList (List.replicate (position - start) ' ') ++ "^\n"

/-- What is wrong, for the first line of a report. -/
def errorLabel : ExecutionError → String
  | .unknownCommand name _ => "Syntax error: unknown command '" ++ name.toString ++ "'"
  | .unmatchedOpen _ => "Syntax error: no matching ']' for loop"
  | .unmatchedClose _ => "Syntax error: ']' without matching '['"

/-- The report of an error in a program. The first line starts with the name of
the reporting program if one is given. -/
def errorReport (reporter : Option String) (code : String) (e : ExecutionError) : String :=
  let opening := match reporter with
    | some name => name ++ ": "
    | none => ""
  report (opening ++ errorLabel e) code e.position

end RingTape.Execution
