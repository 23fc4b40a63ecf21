/-
# Rules of a log

A log may be asked for by rules, each of which lets through the events of one topic, or of all
topics, up to a level. For an event the rule with the longest matching topic decides, and an
event that no rule matches is dropped.
-/

import RingTape.Journal.Filter

namespace RingTape

/-- Events whose topic starts with `topic` pass up to a verbosity. -/
structure LogRule where
  topic : String
  verbosity : Nat
  deriving DecidableEq, Repr

namespace LogRule

/-- The longest of the rules that match a topic; of equals, the last one. -/
def find? (rules : List LogRule) (topic : String) : Option LogRule :=
  rules.foldl (fun best rule =>
    if topic.startsWith rule.topic then
      match best with
      | some found => if rule.topic.length < found.topic.length then best else some rule
      | none => some rule
    else best) none

/-- What passes some rules. -/
def filter (rules : List LogRule) : LogFilter :=
  ⟨fun topic level =>
    match find? rules topic with
    | some rule => level.verbosity ≤ rule.verbosity
    | none => false⟩

/-- The verbosity that a word stands for: a level, `off`, or a digit up to 5. -/
def verbosity? (word : String) : Option Nat :=
  match (word.map Char.toLower : String) with
  | "off" | "0" => some 0
  | "error" | "1" => some 1
  | "warn" | "2" => some 2
  | "info" | "3" => some 3
  | "debug" | "4" => some 4
  | "trace" | "5" => some 5
  | _ => none

/-- One rule: a level for all topics, a topic for all its events, or a topic and
a level joined by an equals sign. -/
def ofText? (text : String) : Option LogRule :=
  match verbosity? text with
  | some v => some ⟨"", v⟩
  | none =>
    match text.splitOn "=" with
    | [topic] => some ⟨topic, Level.trace.verbosity⟩
    | [topic, level] => (verbosity? level).map fun v => ⟨topic, v⟩
    | _ => none

end LogRule

/-- The filter that a variable asks for: rules with commas between them. Warnings
pass when the variable is absent or cannot be understood, and errors alone when
it holds no rule. -/
def LogFilter.ofVariable : Option String → LogFilter
  | none => upTo .warn
  | some text =>
    match (text.splitOn "," |>.filter (· ≠ "")).mapM LogRule.ofText? with
    | none => upTo .warn
    | some [] => upTo .error
    | some rules => LogRule.filter rules

end RingTape
