/-
# The words of the command line

Words name one of the two commands and what is asked of it. Without a command they open a
session.
-/

import RingTape.CommandLine.Arguments
import RingTape.Main.Options

namespace RingTape.CommandLine

/-- The option that asks for help, known to every command. -/
def helpOption : OptionSpec := { long := "help", letter := some 'h' }

/-- The options that both commands know. -/
def commonOptions : List OptionSpec :=
  [helpOption, { long := "tape-size", takesValue := true },
   { long := "ascii", letter := some 'a' }, { long := "ext", letter := some 'x' }]

/-- The options of a run. -/
def runOptions : List OptionSpec :=
  commonOptions ++
    [{ long := "debug", letter := some 'd' },
     { long := "file", letter := some 'f', takesValue := true },
     { long := "cells", takesValue := true }]

/-- The options of a session. -/
def sessionOptions : List OptionSpec :=
  commonOptions ++ [{ long := "bare" }, { long := "editor" }]

/-- The settings that options give. -/
def Words.overrides (w : Words) : Except ArgumentError Overrides := do
  return {
    tapeSize := ← w.valueOf "tape-size" Decimal.size?
    cellMode := ← w.valueOf "cells" CellMode.read
    output := if w.has "ascii" then some .ascii else none
    extensions := if w.has "ext" then some true else none }

/-- The words of a run. -/
def RunArguments.ofWords (words : List String) : Except ArgumentError RunArguments := do
  let w ← readWords runOptions .code none words {}
  return {
    help := w.has "help"
    debug := w.has "debug"
    file := w.given.lookup "file"
    code := w.rest
    overrides := ← w.overrides }

/-- The words of a session. -/
def SessionArguments.ofWords (words : List String) : Except ArgumentError SessionArguments := do
  let w ← readWords sessionOptions .refuse none words {}
  if w.has "bare" ∧ w.has "editor" then throw (.conflict "bare" "editor")
  return {
    help := w.has "help"
    mode := if w.has "bare" then some .bare else if w.has "editor" then some .editor else none
    overrides := ← w.overrides }

/-- The command that words ask for. Help for the program as a whole comes before a
command that follows it, whose own words must still be in order. -/
def Command.ofWords (words : List String) : Except ArgumentError Command := do
  let w ← readWords [helpOption] (.commands ["run", "repl"]) none words {}
  let command ← match w.rest with
    | "run" :: rest => Command.run <$> RunArguments.ofWords rest
    | _ :: rest => Command.session <$> SessionArguments.ofWords rest
    | [] => pure (Command.session {})
  return if w.has "help" then .help else command

end RingTape.CommandLine
