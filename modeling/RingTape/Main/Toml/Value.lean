/-
# TOML values

The values of a TOML document and the statements it is made of. A table knows how
it came about, because that decides what may still be added to it. Floating-point
numbers and times are checked when they are read and then kept without their
value, as no setting is one.
-/

namespace RingTape.Toml

/-- How a table came about: by a header of its own or as the whole document, as a
parent in a longer header, by dotted keys, or between braces. -/
inductive Origin
  | header
  | implied
  | dotted
  | inline
  deriving DecidableEq, Repr

/-- A value. An array of tables is kept with the entries of its last table apart,
which are the ones that headers and keys below it extend. -/
inductive Value
  | string (s : String)
  | integer (n : Int)
  | float
  | boolean (b : Bool)
  | time
  | array (items : List Value)
  | tables (earlier : List Value) (last : List (String × Value))
  | table (origin : Origin) (entries : List (String × Value))

/-- The entries of a table, in the order in which they were made. -/
abbrev Entries := List (String × Value)

/-- A key: the names between its dots. -/
abbrev Key := List String

/-- A statement of a document. -/
inductive Statement
  | header (key : Key)
  | arrayHeader (key : Key)
  | entry (key : Key) (value : Value)

/-- A reader takes something off the front of a text and gives back the rest. -/
abbrev Reader (α : Type) := List Char → Option (α × List Char)

end RingTape.Toml
