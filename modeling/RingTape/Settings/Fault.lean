/-
# Faults of files

Why a file could not be read as text, and why a settings file was set aside.
-/

namespace RingTape

/-- Why a file gives no text: it cannot be read, for a reason in the words of the system, or
its bytes are none. -/
inductive FileError
  | unreadable (reason : String)
  | invalidText
  deriving DecidableEq, Repr

/-- The wording of a file that gives no text. -/
def FileError.message : FileError → String
  | .unreadable reason => reason
  | .invalidText => "stream did not contain valid UTF-8"

/-- Why the settings file at `path` gives no settings: it gives no text, or one that is no
settings file, for a reason in the words of whoever reads such texts. -/
inductive ConfigError
  | unreadable (path : String) (cause : FileError)
  | malformed (path reason : String)
  deriving DecidableEq, Repr

/-- The wording of a settings file that gives no settings. -/
def ConfigError.message : ConfigError → String
  | .unreadable path cause => "failed to read " ++ path ++ ": " ++ cause.message
  | .malformed path reason => "invalid config " ++ path ++ ": " ++ reason

end RingTape
