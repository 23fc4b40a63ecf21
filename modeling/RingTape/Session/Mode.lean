/-
# The mode of a session

A session is bare or uses the line editor. A command-line flag decides, else the
variable TAPEBF_REPL_MODE, else whether the standard input is a terminal, without
which there is no editor.
-/

import RingTape.Journal.Event
import RingTape.Text.Blank

namespace RingTape

/-- Why no mode can be chosen. -/
inductive ModeError
  | flagWithoutTerminal
  | variableWithoutTerminal
  | unknownMode (value : String)
  deriving DecidableEq, Repr

/-- The wording of a mode that cannot be chosen. -/
def ModeError.message : ModeError → String
  | .flagWithoutTerminal =>
    "cannot start editor: stdin is not a TTY (use --bare or TAPEBF_REPL_MODE=bare)"
  | .variableWithoutTerminal =>
    "cannot start editor: stdin is not a TTY (use TAPEBF_REPL_MODE=bare)"
  | .unknownMode value =>
    "invalid TAPEBF_REPL_MODE value: " ++ value ++ ", must be 'bare' or 'editor'"

namespace SessionMode

/-- The mode that the variable asks for, in any case and between blanks. -/
def ofVariable (terminal : Bool) (value : String) : Except ModeError SessionMode :=
  match ((Text.trim value).map Char.toLower : String) with
  | "bare" => .ok .bare
  | "editor" => if terminal then .ok .editor else .error .variableWithoutTerminal
  | _ => .error (.unknownMode value)

/-- Choose a mode from the flag, the variable and the standard input. -/
def select (flag : Option SessionMode) (setting : Option String) (terminal : Bool) :
    Except ModeError SessionMode :=
  match flag, setting with
  | some .bare, _ => .ok .bare
  | some .editor, _ => if terminal then .ok .editor else .error .flagWithoutTerminal
  | none, some value => ofVariable terminal value
  | none, none => .ok (if terminal then .editor else .bare)

end SessionMode

end RingTape
