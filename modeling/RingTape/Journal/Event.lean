/-
# Events

Everything the library tells its observers about its own doings. An event has a
level, a topic, a message and named fields in a fixed order. Observers never
answer, so nothing depends on who listens.
-/

import RingTape.Channel.Diagnostic
import RingTape.Channel.Sink
import RingTape.Execution.Error
import RingTape.Settings.Fault

namespace RingTape

/-- How important an event is. -/
inductive Level
  | error
  | warn
  | info
  | debug
  | trace
  deriving DecidableEq, Repr

namespace Level

/-- The name of a level. -/
def name : Level → String
  | .error => "error"
  | .warn => "warn"
  | .info => "info"
  | .debug => "debug"
  | .trace => "trace"

/-- How much must be let through for a level to be seen. -/
def verbosity : Level → Nat
  | .error => 1
  | .warn => 2
  | .info => 3
  | .debug => 4
  | .trace => 5

end Level

/-- How an interactive program takes its submissions: all of the standard input
at once, or one after the other from a line editor. -/
inductive SessionMode
  | bare
  | editor
  deriving DecidableEq, Repr

/-- The name of a session mode. -/
def SessionMode.name : SessionMode → String
  | .bare => "bare"
  | .editor => "editor"

/-- What happened. -/
inductive Event
  | executionStarted (length : Nat) (tape : Nat)
  | executionFinished (steps : Nat)
  | executionAborted (steps : Nat) (error : ExecutionError)
  | loopEntered (opened close : Nat)
  | loopSkipped (opened close : Nat)
  | sinkRejected (value : Int64) (error : SinkError)
  | inputFailed (diagnostic : Diagnostic)
  | commandAdded (name : Char)
  | commandRemoved (name : Char)
  | fileLoaded (path : String)
  | fileIgnored (error : ConfigError)
  | variableIgnored (name value error : String)
  | sessionStarting (mode : SessionMode) (tapeSize : Nat)
  deriving DecidableEq, Repr

/-- The value of a field: a number, a text as it is, or a text that a line of the
log puts between quotes. -/
inductive FieldValue
  | number (n : Int)
  | plain (s : String)
  | quoted (s : String)
  deriving DecidableEq, Repr

namespace Event

/-- The level of an event. -/
def level : Event → Level
  | .executionStarted .. | .executionFinished .. | .executionAborted .. => .debug
  | .loopEntered .. | .loopSkipped .. => .trace
  | .sinkRejected .. | .inputFailed .. => .warn
  | .commandAdded .. | .commandRemoved .. => .debug
  | .fileLoaded .. => .debug
  | .fileIgnored .. | .variableIgnored .. => .warn
  | .sessionStarting .. => .debug

/-- The topic an event belongs to, by which a log can be filtered. -/
def topic : Event → String
  | .executionStarted .. | .executionFinished .. | .executionAborted .. => "tapebf::interpreter"
  | .loopEntered .. | .loopSkipped .. => "tapebf::interpreter"
  | .sinkRejected .. | .inputFailed .. => "tapebf::machine"
  | .commandAdded .. | .commandRemoved .. => "tapebf::registry"
  | .fileLoaded .. | .fileIgnored .. | .variableIgnored .. => "tapebf::config"
  | .sessionStarting .. => "tapebf::commands::repl"

/-- The message of an event. -/
def message : Event → String
  | .executionStarted .. => "execution started"
  | .executionFinished .. => "execution finished"
  | .executionAborted .. => "execution aborted"
  | .loopEntered .. => "enter loop"
  | .loopSkipped .. => "skip loop"
  | .sinkRejected .. => "output sink rejected value"
  | .inputFailed .. => "input command failed"
  | .commandAdded .. => "registered custom command"
  | .commandRemoved .. => "removed custom command"
  | .fileLoaded .. => "loaded config file"
  | .fileIgnored .. => "ignoring config file"
  | .variableIgnored .. => "ignoring environment variable"
  | .sessionStarting .. => "repl session starting"

/-- The fields of an event, in order. -/
def fields : Event → List (String × FieldValue)
  | .executionStarted length tape => [("len", .number length), ("tape", .number tape)]
  | .executionFinished steps => [("steps", .number steps)]
  | .executionAborted steps error => [("steps", .number steps), ("error", .plain error.message)]
  | .loopEntered opened close => [("open", .number opened), ("close", .number close)]
  | .loopSkipped opened close => [("open", .number opened), ("close", .number close)]
  | .sinkRejected value error => [("value", .number value.toInt), ("error", .plain error.message)]
  | .inputFailed diagnostic => [("diagnostic", .plain diagnostic.message)]
  | .commandAdded name => [("name", .plain name.toString)]
  | .commandRemoved name => [("name", .plain name.toString)]
  | .fileLoaded path => [("path", .plain path)]
  | .fileIgnored error => [("error", .plain error.message)]
  | .variableIgnored name value error =>
    [("key", .quoted name), ("value", .plain value), ("error", .plain error)]
  | .sessionStarting mode tapeSize =>
    [("mode", .plain (match mode with | .bare => "Bare" | .editor => "Editor")),
     ("tape_size", .number tapeSize)]

end Event

end RingTape
