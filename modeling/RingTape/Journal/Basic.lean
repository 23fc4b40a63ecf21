/-
# The journal

The journal is the record of what observers see, in the order in which it
happened: the events that pass its filter, and pieces of text that were printed
between them. A journal is written to and emptied, never consulted, so a run
cannot depend on it.
-/

import RingTape.Journal.Filter
import RingTape.Text.Quoted

namespace RingTape

/-- An event, or text that was printed beside the events. -/
inductive Entry
  | event (e : Event)
  | text (s : String)
  deriving DecidableEq, Repr

/-- A filter and what has passed it. -/
structure Journal where
  filter : LogFilter := .silent
  entries : Array Entry := #[]
  deriving Inhabited

namespace Journal

/-- Record an event if it passes the filter. -/
def record (j : Journal) (e : Event) : Journal :=
  if j.filter.passes e then { j with entries := j.entries.push (.event e) } else j

/-- Record events in order. -/
def recordAll (j : Journal) (events : List Event) : Journal := events.foldl record j

/-- Print text beside the events. -/
def print (j : Journal) (s : String) : Journal := { j with entries := j.entries.push (.text s) }

/-- Forget what was recorded. -/
def clear (j : Journal) : Journal := { j with entries := #[] }

/-- The recorded events. -/
def events (j : Journal) : List Event :=
  j.entries.toList.filterMap fun
    | .event e => some e
    | .text _ => none

/-- The printed texts, joined. -/
def printed (j : Journal) : String :=
  String.join (j.entries.toList.filterMap fun
    | .event _ => none
    | .text s => some s)

/-- The value of a field in a line of the log. -/
def fieldText : FieldValue → String
  | .number n => toString n
  | .plain s => s
  | .quoted s => Text.Quoted.text s

/-- A level in capitals, to the right of five columns. -/
def levelText : Level → String
  | .error => "ERROR"
  | .warn => " WARN"
  | .info => " INFO"
  | .debug => "DEBUG"
  | .trace => "TRACE"

/-- An event as a line of the log: level, topic, message, then every field. -/
def line (e : Event) : String :=
  levelText e.level ++ " " ++ e.topic ++ ": " ++ e.message ++
    String.join (e.fields.map fun field => " " ++ field.1 ++ "=" ++ fieldText field.2) ++ "\n"

/-- The journal as text, with a line for every event. -/
def text (j : Journal) : String :=
  String.join (j.entries.toList.map fun
    | .event e => line e
    | .text s => s)

end Journal

end RingTape
