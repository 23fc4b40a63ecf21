/-
# Command-line options

An option has a long name, perhaps a letter, and takes a value or not. A word with
two dashes names one option, with its value perhaps after an equals sign; a word
with one dash is a cluster of letters, and a letter that takes a value takes the
rest of its cluster. No option may be given twice. What happens to other words is
up to the command: it refuses them, or looks for the name of a command among
them, or takes the first of them and all that follow as the code of a program. A
command that takes code also takes for code what merely looks like an option.
-/

namespace RingTape.CommandLine

/-- An option that a command knows. -/
structure OptionSpec where
  long : String
  letter : Option Char := none
  takesValue : Bool := false
  deriving DecidableEq, Repr

/-- What a command does with words that are no options. -/
inductive WordRule
  | refuse
  | commands (names : List String)
  | code
  deriving DecidableEq, Repr

/-- Why words make no command. -/
inductive ArgumentError
  | unexpected (word : String)
  | missingValue (option : String)
  | needlessValue (option : String)
  | repeated (option : String)
  | invalidValue (option value : String)
  | conflict (first second : String)
  deriving DecidableEq, Repr

/-- The wording of a fault in the words of a command. -/
def ArgumentError.message : ArgumentError → String
  | .unexpected word => "unexpected argument '" ++ word ++ "'"
  | .missingValue option => "a value is required for '--" ++ option ++ "'"
  | .needlessValue option => "no value is allowed for '--" ++ option ++ "'"
  | .repeated option => "'--" ++ option ++ "' cannot be used more than once"
  | .invalidValue option value => "invalid value '" ++ value ++ "' for '--" ++ option ++ "'"
  | .conflict first second => "'--" ++ first ++ "' cannot be used with '--" ++ second ++ "'"

/-- The options given, each with its value, and the words after them. -/
structure Words where
  given : List (String × String) := []
  rest : List String := []
  deriving DecidableEq, Repr

namespace Words

/-- Add an option that was not given before. -/
def give (w : Words) (option value : String) : Except ArgumentError Words :=
  if (w.given.lookup option).isSome then .error (.repeated option)
  else .ok { w with given := (option, value) :: w.given }

/-- Whether an option was given. -/
def has (w : Words) (option : String) : Bool := (w.given.lookup option).isSome

/-- The value of an option, read by a function. -/
def valueOf {α ε : Type} (w : Words) (option : String) (read : String → Except ε α) :
    Except ArgumentError (Option α) :=
  match w.given.lookup option with
  | none => .ok none
  | some value =>
    match read value with
    | .ok a => .ok (some a)
    | .error _ => .error (.invalidValue option value)

end Words

/-- What a word looks like. -/
inductive WordShape
  | escape
  | long (name : String) (value : Option String)
  | cluster (letters : List Char)
  | plain
  deriving DecidableEq, Repr

/-- Cut a word at its first equals sign. -/
def cutEquals (cs : List Char) : String × Option String :=
  match cs.dropWhile (· ≠ '=') with
  | _ :: value => (String.ofList (cs.takeWhile (· ≠ '=')), some (String.ofList value))
  | [] => (String.ofList cs, none)

/-- The shape of a word. A single dash is a plain word. -/
def WordShape.of (word : String) : WordShape :=
  match word.toList with
  | ['-', '-'] => .escape
  | '-' :: '-' :: rest =>
    let (name, value) := cutEquals rest
    .long name value
  | '-' :: c :: rest => .cluster (c :: rest)
  | _ => .plain

/-- The option of a letter. -/
def ofLetter? (specs : List OptionSpec) (c : Char) : Option OptionSpec :=
  specs.find? fun spec => spec.letter = some c

/-- Take the letters of a cluster. The answer names the option that still waits for
its value, if the cluster ends with one. -/
def takeCluster (specs : List OptionSpec) :
    List Char → Words → Except ArgumentError (Words × Option String)
  | [], w => .ok (w, none)
  | c :: rest, w =>
    match ofLetter? specs c with
    | none => .error (.unexpected (String.ofList ['-', c]))
    | some spec =>
      if spec.takesValue then
        match rest with
        | [] => .ok (w, some spec.long)
        | '=' :: value => (w.give spec.long (String.ofList value)).map (·, none)
        | value => (w.give spec.long (String.ofList value)).map (·, none)
      else
        match w.give spec.long "" with
        | .ok w => takeCluster specs rest w
        | .error e => .error e

/-- Whether a word stands for options; if not, it is a value, a name or code. -/
def isOption (specs : List OptionSpec) (rule : WordRule) (word : String) : Bool :=
  match WordShape.of word with
  | .escape => true
  | .long name _ => rule ≠ .code || specs.any fun spec => spec.long = name
  | .cluster letters => rule ≠ .code || letters.all fun c => (ofLetter? specs c).isSome
  | .plain => false

/-- Take a word that stands for options. -/
def takeOption (specs : List OptionSpec) (word : String) (w : Words) :
    Except ArgumentError (Words × Option String) :=
  match WordShape.of word with
  | .long name value =>
    match specs.find? fun spec => spec.long = name with
    | none => .error (.unexpected word)
    | some spec =>
      match spec.takesValue, value with
      | true, some value => (w.give name value).map (·, none)
      | true, none => .ok (w, some name)
      | false, some _ => .error (.needlessValue name)
      | false, none => (w.give name "").map (·, none)
  | .cluster letters => takeCluster specs letters w
  | .escape | .plain => .error (.unexpected word)

/-- Read the words of a command. `pending` names the option that waits for a value. -/
def readWords (specs : List OptionSpec) (rule : WordRule) :
    (pending : Option String) → List String → Words → Except ArgumentError Words
  | some option, [], _ => .error (.missingValue option)
  | none, [], w => .ok w
  | some option, word :: rest, w =>
    if isOption specs rule word then .error (.missingValue option)
    else
      match w.give option word with
      | .ok w => readWords specs rule none rest w
      | .error e => .error e
  | none, word :: rest, w =>
    if word = "--" then
      if rest = [] ∨ rule = .code then .ok { w with rest }
      else .error (.unexpected (rest.headD ""))
    else if isOption specs rule word then
      match takeOption specs word w with
      | .ok (w, pending) => readWords specs rule pending rest w
      | .error e => .error e
    else
      match rule with
      | .refuse => .error (.unexpected word)
      | .commands names =>
        if names.contains word then .ok { w with rest := word :: rest }
        else .error (.unexpected word)
      | .code => .ok { w with rest := word :: rest }

end RingTape.CommandLine
