/-
# Resolving settings

Settings are resolved in layers: the defaults, the settings file, the environment,
the command line. A settings file that exists but gives no layer is noted and
passed over as a whole. From the resolved settings an interpreter is built, which
succeeds unless there can be no such tape.

What the system holds is not known here. Its variables and files are given, and so is
the function that reads the text of a settings file.
-/

import RingTape.Interpreter
import RingTape.Settings.Environment
import RingTape.Text.Utf8

namespace RingTape

/-- The files of the system: whether there is anything at a path, and the bytes that are
read there or the reason why they cannot be. -/
structure Files where
  present : String → Bool
  read : String → Except String (List UInt8)

/-- The text of a file. -/
def Files.text (files : Files) (path : String) : Except FileError String :=
  match files.read path with
  | .error reason => .error (.unreadable reason)
  | .ok bytes =>
    match Utf8.decode? bytes with
    | some text => .ok text
    | none => .error .invalidText

namespace Settings

/-- A name inside a directory. -/
def joinPath (directory name : String) : String :=
  if directory = "" ∨ directory.endsWith "/" then directory ++ name
  else directory ++ "/" ++ name

/-- Where settings come from, apart from the command line: the variables, the directory that
settings are kept in if there is one, the files, and the function that finds a layer in the text
of a settings file or says why there is none. -/
structure Origins where
  env : Environment
  home : Option String
  files : Files
  layer : String → Except String Overrides

namespace Origins

/-- The place of the settings file: the one that the environment names, else the usual one in
the directory of settings. -/
def path (o : Origins) : Option String :=
  match o.env "TAPEBF_CONFIG" with
  | some path => some path
  | none => o.home.map fun directory => joinPath directory settingsFile

/-- The layer of the settings file at a path. -/
def fileLayer (o : Origins) (path : String) : Except ConfigError Overrides :=
  match o.files.text path with
  | .error e => .error (.unreadable path e)
  | .ok text => (o.layer text).mapError (.malformed path)

/-- What the settings file adds, which is nothing if there is none. A file that was found is
noted, either as loaded or as ignored. -/
def file (o : Origins) : Overrides × List Event :=
  match o.path with
  | none => ({}, [])
  | some path =>
    if o.files.present path then
      match o.fileLayer path with
      | .ok layer => (layer, [.fileLoaded path])
      | .error e => ({}, [.fileIgnored e])
    else ({}, [])

end Origins

/-- The settings in force, and what is noted while they are resolved. -/
def resolve (o : Origins) (overrides : Overrides) : Settings × List Event :=
  let (file, found) := o.file
  let (environment, noted) := o.env.layer
  (((({} : Settings).override file).override environment).override overrides, found ++ noted)

/-- Why no interpreter can be built. -/
inductive BuildError
  | tape (e : TapeError)
  | registry (e : RegistryError)
  deriving DecidableEq, Repr

/-- The wording of an interpreter that cannot be built. -/
def BuildError.message : BuildError → String
  | .tape e => e.message
  | .registry e => e.message

/-- The interpreter that settings ask for. Its numbers are written in the format of
the settings, and its journal goes on from the one that is given. -/
def build (grants : Nat → Bool) (s : Settings) (source : Source) (journal : Journal) :
    Except BuildError Interpreter :=
  match Tape.new grants s.tapeSize s.cellMode with
  | .error e => .error (.tape e)
  | .ok tape =>
    let i : Interpreter := { machine := { tape, sink := .toText s.output none, source, journal } }
    if s.extensions then
      match i.addStock with
      | (.ok (), i) => .ok i
      | (.error e, _) => .error (.registry e)
    else .ok i

end Settings

end RingTape
