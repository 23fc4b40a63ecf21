/-
# Sessions

A session is a series of submissions to one interpreter, whose tape carries over.
A submission is blank, a request to the session itself, which starts with a
colon, or program text. From program text everything that is no instruction is
dropped, and what is left, if anything, is executed once. An error is reported
and the session goes on.
-/

import RingTape.Execution.Report
import RingTape.Interpreter
import RingTape.Tape.View

namespace RingTape

/-- A request to the session itself. -/
inductive Request
  | exit
  | help
  | reset
  | tape
  | unknown
  deriving DecidableEq, Repr

namespace Request

/-- The request that a word after the colon makes. -/
def ofWord (word : String) : Request :=
  match word with
  | "exit" | "quit" | "q" => .exit
  | "help" | "h" => .help
  | "reset" => .reset
  | "tape" => .tape
  | _ => .unknown

/-- The request in a submission; `none` when it is program text. -/
def parse (line : String) : Option Request :=
  match Text.trimList line.toList with
  | ':' :: word => some (ofWord (String.ofList (Text.trimList word)))
  | _ => none

/-- The list of requests. -/
def helpText : String :=
  "Meta commands:\n" ++
    "  :exit    Leave the REPL\n" ++
    "  :help    Show this help\n" ++
    "  :reset   Zero the tape and move the pointer to cell 0\n" ++
    "  :tape    Show the cells around the pointer\n"

end Request

namespace Interpreter

/-- Print text to the journal. -/
def print (i : Interpreter) (s : String) : Interpreter :=
  { i with machine := { i.machine with journal := i.machine.journal.print s } }

/-- Execute a piece of program text and print the report of an error. -/
def executeBuffer (fuel : Nat) (code : String) (i : Interpreter) : Option Interpreter :=
  (i.execute fuel code).map fun
    | (.ok (), i) => i
    | (.error e, i) => i.print (Execution.errorReport none code e)

end Interpreter

namespace Session

/-- What a submission leads to: the interpreter after it, what was shown on the
standard output besides the numbers of the program, whether a program was
executed and whether the session is over. -/
structure Reply where
  interpreter : Interpreter
  shown : String := ""
  executed : Bool := false
  ended : Bool := false

/-- Answer a request. The text of the submission is quoted if it makes none that
is known. -/
def answer (line : String) (i : Interpreter) : Request → Reply
  | .exit => { interpreter := i, ended := true }
  | .help => { interpreter := i.print Request.helpText }
  | .reset => { interpreter := i.reset.print "tape reset\n" }
  | .tape => { interpreter := i, shown := i.machine.tape.view }
  | .unknown =>
    { interpreter := i.print
        ("unknown meta command " ++ Text.Quoted.text line ++ " (try :help)\n") }

/-- Execute the instructions of program text, if it has any. -/
def runText (fuel : Nat) (text : String) (i : Interpreter) : Option Reply :=
  let code := instructionsOnly text i.registry.customNames
  if code = "" then some { interpreter := i }
  else (i.executeBuffer fuel code).map fun i => { interpreter := i, executed := true }

/-- Take one submission. With `once` the first execution ends the session. -/
def submit (fuel : Nat) (once : Bool) (submission : String) (i : Interpreter) : Option Reply :=
  let text := Text.trim submission
  if text = "" then some { interpreter := i }
  else
    match Request.parse text with
    | some request => some (answer text i request)
    | none => (runText fuel text i).map fun reply => { reply with ended := once && reply.executed }

/-- Take submissions one after the other, up to the one that ends the session or to the
last of them. -/
def run (fuel : Nat) (once : Bool) : List String → Interpreter → Option (List Reply)
  | [], _ => some []
  | submission :: rest, i => do
    let reply ← submit fuel once submission i
    if reply.ended then return [reply]
    else return reply :: (← run fuel once rest reply.interpreter)

/-- The single submission of a bare session: all of its input, if that is text
and not empty. -/
def readSubmission (input : List UInt8) : Option String :=
  match Utf8.decode? input with
  | some text => if text = "" then none else some text
  | none => none

/-- A bare session: its input is executed once. -/
def runBare (fuel : Nat) (input : List UInt8) (i : Interpreter) : Option Interpreter :=
  match readSubmission input with
  | some text => (runText fuel (Text.trim text) i).map Reply.interpreter
  | none => some i

end Session

end RingTape
