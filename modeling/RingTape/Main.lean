/-
# The program

The program as it runs: it gathers what is around it, carries out the command that
its words ask for, and writes what the command wrote. Everything that is decided is
decided elsewhere; here are only the readings and the writings. A submission of an
interactive session is one line, and the end of the input leaves the session.
-/

import RingTape.CommandLine.Launch
import RingTape.Main.LogRules
import RingTape.Main.SettingsFile
import RingTape.Main.Words

namespace RingTape.CommandLine

/-- How many steps one execution may take: more than there is time for. -/
def stepLimit : Nat := 0x4000000000000000

/-- The variables that the program looks at. -/
def variableNames : List String :=
  ["TAPEBF_CONFIG", "XDG_CONFIG_HOME", "HOME", "TAPEBF_TAPE_SIZE", "TAPEBF_CELL_MODE",
   "TAPEBF_OUTPUT", "TAPEBF_EXTENSIONS", "TAPEBF_REPL_MODE", "TAPEBF_REPL_ONCE", "RUST_LOG"]

/-- The files that a command may look at. -/
def Command.paths (o : Settings.Origins) : Command → List String
  | .help => []
  | .run a => o.path.toList ++ a.file.toList
  | .session _ => o.path.toList

/-- Whether a command reads the standard input before it has written anything. -/
def Command.readsInput (s : Surroundings) : Command → Bool
  | .help => false
  | .run a =>
    match a.source s with
    | .ok code => code.contains ','
    | .error _ => false
  | .session a =>
    match SessionMode.select a.mode (s.env "TAPEBF_REPL_MODE") s.terminal with
    | .ok .bare => true
    | .ok .editor | .error _ => false

/-- The variables of the environment that the program looks at. -/
def readEnvironment : IO Environment := do
  let given ← variableNames.filterMapM fun name => do
    return (← IO.getEnv name).map (name, ·)
  return fun name => given.lookup name

/-- Why a file could not be read, as the system says it. -/
def reason : IO.Error → String
  | .noFileOrDirectory .. => "No such file or directory (os error 2)"
  | .inappropriateType none .. => "Is a directory (os error 21)"
  | .inappropriateType (some _) .. => "Not a directory (os error 20)"
  | .invalidArgument _ _ "name too long" => "File name too long (os error 36)"
  | .permissionDenied .. => "Permission denied (os error 13)"
  | e => toString e

/-- Whether something is at a path, and what is read there. -/
def readPath (path : String) : IO (Bool × Except String (List UInt8)) := do
  let found := (← (IO.FS.realPath path).toBaseIO).isOk
  match ← (IO.FS.readBinFile path).toBaseIO with
  | .ok content => return (found, .ok content.data.toList)
  | .error e => return (found, .error (reason e))

/-- The files at some paths. All others count as absent. -/
def readPaths (paths : List String) : IO Files := do
  let files ← paths.mapM fun path => do return (path, ← readPath path)
  return {
    present := fun path => (files.lookup path).any Prod.fst
    read := fun path => match files.lookup path with
      | some (_, content) => content
      | none => .error "not looked at" }

/-- What a command finds around it. Memory is taken to be there, and the standard input is read
only if the command needs it. -/
def gather (command : Command) : IO Surroundings := do
  let stdin ← IO.getStdin
  let env ← readEnvironment
  let s : Surroundings := {
    env
    home := Settings.usualHome env
    files := ← readPaths []
    layer := Overrides.ofText
    filter := LogFilter.ofVariable (env "RUST_LOG")
    grants := fun _ => true
    input := []
    terminal := ← stdin.isTty }
  let s := { s with files := ← readPaths (command.paths s.toOrigins) }
  if command.readsInput s then
    return { s with input := (← stdin.readBinToEnd).data.toList }
  else return s

/-- Write on the two standard channels. -/
def Written.put (w : Written) : IO Unit := do
  let stdout ← IO.getStdout
  stdout.write ⟨w.stdout⟩
  stdout.flush
  let stderr ← IO.getStderr
  stderr.putStr w.stderr
  stderr.flush

/-- Answer submissions until the conversation ends or the user leaves. -/
partial def converse (c : Conversation) : IO Unit := do
  let submission ← (← IO.getStdin).getLine
  if submission.isEmpty then Conversation.farewell.put
  else
    match c.answer stepLimit submission with
    | some (written, some c) =>
      written.put
      converse c
    | some (written, none) => written.put
    | none => return

/-- Run the program on the words of its command line. The answer is its status. -/
def start (words : List String) : IO Nat := do
  match Command.ofWords words with
  | .error e =>
    Written.put { stderr := complaint e.message }
    return 2
  | .ok command =>
    match command.launch stepLimit (← gather command) with
    | some (.ended ending) =>
      ending.written.put
      return ending.status
    | some (.prompt opening conversation) =>
      opening.put
      converse conversation
      return 0
    | none => return 1

end RingTape.CommandLine

/-- Run the program on the words of its command line. -/
def main (args : List String) : IO UInt32 := do
  return UInt32.ofNat (← RingTape.CommandLine.start args)
