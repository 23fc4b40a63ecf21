/-
# Carrying out commands

What the program does for a command: what it writes, in which order, and the
status it ends with. A run executes one program and fails if the program does. A
bare session executes its input once. An interactive session is a conversation:
each submission is answered with what is written until the next prompt.
-/

import RingTape.CommandLine.Arguments
import RingTape.CommandLine.Usage
import RingTape.Session.Basic
import RingTape.Session.Mode
import RingTape.Settings.Resolve

namespace RingTape.CommandLine

/-- What the program finds around it: where its settings come from, which events the log is
to take, whether there is memory for a number of cells, the standard input and whether that is
a terminal. -/
structure Surroundings extends Settings.Origins where
  filter : LogFilter
  grants : Nat → Bool
  input : List UInt8
  terminal : Bool

/-- What is written on the two standard channels. -/
structure Written where
  stdout : Array UInt8 := #[]
  stderr : String := ""
  deriving DecidableEq, Repr

/-- The end of the program: its status and what it wrote. -/
structure Ending where
  status : Nat
  written : Written := {}
  deriving DecidableEq, Repr

/-- An interactive session at its first prompt. -/
structure Conversation where
  interpreter : Interpreter
  once : Bool

/-- What a command leads to: the end of the program, or an interactive session
after what was written before its first prompt. -/
inductive Launch
  | ended (ending : Ending)
  | prompt (opening : Written) (conversation : Conversation)

/-- A message of the program on a line of its own. -/
def complaint (message : String) : String := programName ++ ": " ++ message ++ "\n"

/-- An ending with a journal and what was written on the standard output. -/
def endWith (status : Nat) (journal : Journal) (stdout : Array UInt8 := #[]) : Ending :=
  { status, written := { stdout, stderr := journal.text } }

/-- An ending with text on the error output alone. -/
def endWithText (status : Nat) (text : String) : Ending :=
  { status, written := { stderr := text } }

/-- The journal of the program when it starts. -/
def Surroundings.journal (s : Surroundings) : Journal := { filter := s.filter }

/-- The code of a run, from its file or else from its words joined. -/
def RunArguments.source (a : RunArguments) (s : Surroundings) : Except FileError String :=
  match a.file with
  | none => .ok (String.join a.code)
  | some path => s.files.text path

/-- Execute the code of a run, with the table of its steps if that is asked for. -/
def executeRun (fuel : Nat) (debug : Bool) (code : String) (i : Interpreter) :
    Option (Except ExecutionError Unit × Interpreter) :=
  if debug then (i.executeTraced .toJournal fuel code ()).map fun (result, i, _) => (result, i)
  else i.execute fuel code

/-- What a run writes on the standard output: its numbers in the chosen format, and
one more line ending after characters. -/
def runOutput (output : OutputFormat) (i : Interpreter) : Array UInt8 :=
  match output with
  | .numbers => i.machine.sink.written
  | .ascii => i.machine.sink.written ++ Utf8.encode "\n"

/-- The ending of a run whose code was executed. -/
def finishRun (settings : Settings) (code : String) :
    Except ExecutionError Unit × Interpreter → Ending
  | (.ok (), i) => endWith 0 i.machine.journal (runOutput settings.output i)
  | (.error e, i) =>
    let report := Execution.errorReport (some programName) code e
    endWith 1 (i.machine.journal.print report) (runOutput settings.output i)

/-- Build an interpreter and execute code on it. -/
def runCode (fuel : Nat) (debug : Bool) (grants : Nat → Bool) (settings : Settings)
    (journal : Journal) (input : List UInt8) (code : String) : Option Ending :=
  match settings.build grants (.stream input) journal with
  | .error e => some (endWith 1 (journal.print (complaint e.message)))
  | .ok i => (executeRun fuel debug code i).map (finishRun settings code)

/-- Carry out a run. -/
def launchRun (fuel : Nat) (s : Surroundings) (a : RunArguments) : Option Ending :=
  if a.help then some (endWithText 0 runUsage)
  else if a.file = none ∧ a.code = [] then some (endWithText 2 runUsage)
  else if a.file ≠ none ∧ a.code ≠ [] then
    some (endWithText 2
      (complaint "cannot use positional code together with --file" ++ runUsage))
  else
    let (settings, events) := Settings.resolve s.toOrigins a.overrides
    let journal := s.journal.recordAll events
    match a.source s with
    | .error e =>
      some (endWith 1 (journal.print (complaint ("failed to read code file as UTF-8: " ++ e.message))))
    | .ok code => runCode fuel a.debug s.grants settings journal s.input code

/-- Carry out a session up to its first prompt or, if it is bare, to its end. The
input of a bare session is its program, so nothing is left for the input command. -/
def launchSession (fuel : Nat) (s : Surroundings) (a : SessionArguments) : Option Launch :=
  if a.help then some (.ended (endWithText 0 sessionUsage))
  else
    match SessionMode.select a.mode (s.env "TAPEBF_REPL_MODE") s.terminal with
    | .error e => some (.ended (endWithText 1 (complaint e.message)))
    | .ok mode =>
      let (settings, events) := Settings.resolve s.toOrigins a.overrides
      let journal := s.journal.recordAll events
      match settings.build s.grants (.stream []) journal with
      | .error e => some (.ended (endWith 1 (journal.print (complaint e.message))))
      | .ok i =>
        let i := { i with machine := i.machine.record (.sessionStarting mode settings.tapeSize) }
        match mode with
        | .bare =>
          (Session.runBare fuel s.input i).map fun i =>
            .ended (endWith 0 i.machine.journal i.machine.sink.written)
        | .editor =>
          let opening := { stderr := i.machine.journal.text }
          let machine := { i.machine with journal := i.machine.journal.clear }
          some (.prompt opening
            { interpreter := { i with machine }, once := s.env "TAPEBF_REPL_ONCE" = some "1" })

/-- Carry out a command. -/
def Command.launch (fuel : Nat) (s : Surroundings) : Command → Option Launch
  | .help => some (.ended (endWithText 0 programUsage))
  | .run a => (launchRun fuel s a).map .ended
  | .session a => launchSession fuel s a

namespace Conversation

/-- What was written from one state of an interpreter to a later one: its numbers, then what
was shown besides them, and what was added to its journal. -/
def writtenSince (before after : Interpreter) (shown : String) : Written :=
  let numbers := after.machine.sink.written.extract before.machine.sink.written.size
  let entries := after.machine.journal.entries.extract before.machine.journal.entries.size
  { stdout := numbers ++ Utf8.encode shown
    stderr := { after.machine.journal with entries }.text }

/-- Answer one submission: what is written, and the conversation after it, or
`none` when the submission ended it. -/
def answer (fuel : Nat) (submission : String) (c : Conversation) :
    Option (Written × Option Conversation) :=
  (Session.submit fuel c.once submission c.interpreter).map fun reply =>
    (writtenSince c.interpreter reply.interpreter reply.shown,
      if reply.ended then none else some { c with interpreter := reply.interpreter })

/-- What is written when the user leaves instead of submitting. -/
def farewell : Written := { stdout := (Utf8.encode "\n").toArray }

/-- What is written after each prompt, given the replies that follow a state of the
interpreter. If none of them ends the session the user leaves after the last. -/
def phases : Interpreter → List Session.Reply → List Written
  | _, [] => [farewell]
  | before, reply :: rest =>
    writtenSince before reply.interpreter reply.shown ::
      if reply.ended then [] else phases reply.interpreter rest

/-- A conversation over given submissions, after which the user leaves: what is
written after each prompt. -/
def run (fuel : Nat) (submissions : List String) (c : Conversation) : Option (List Written) :=
  (Session.run fuel c.once submissions c.interpreter).map (phases c.interpreter)

end Conversation

end RingTape.CommandLine
