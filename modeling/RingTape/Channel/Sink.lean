/-
# Sinks

A sink receives the numbers that a program puts out, batch by batch, and may
refuse a batch. It keeps every batch it was handed, the refused ones included. A
text sink writes each number in one of two formats to a writer and gives up on a
batch at the first number that does not fit. Any other sink is a verdict on
batches, which may depend on all the batches that came before.
-/

import RingTape.Channel.Writer
import RingTape.Text.Blank
import RingTape.Text.Decimal
import RingTape.Text.Utf8

namespace RingTape

/-- How numbers are written: in base ten with a line each, or as characters. -/
inductive OutputFormat
  | numbers
  | ascii
  deriving DecidableEq, Repr, Inhabited

namespace OutputFormat

/-- The name of a format. -/
def name : OutputFormat → String
  | .numbers => "numbers"
  | .ascii => "ascii"

/-- The format of that exact name. -/
def ofName? (s : String) : Option OutputFormat :=
  if s = "numbers" then some .numbers else if s = "ascii" then some .ascii else none

@[simp] theorem ofName?_name (format : OutputFormat) : ofName? format.name = some format := by
  cases format <;> rfl

/-- Read a format, in any case and between blanks. A text that names none is
answered by the message that says so. -/
def read (s : String) : Except String OutputFormat :=
  let key := (Text.trim s).map Char.toLower
  match ofName? key with
  | some format => .ok format
  | none => .error ("invalid output format '" ++ key ++ "', must be 'numbers' or 'ascii'")

/-- The character of a number: the scalar value it is, or U+FFFD if it is none. -/
def character (value : Int64) : Char :=
  let code := value.toInt
  if 0 ≤ code ∧ code.toNat.isValidChar then Char.ofNat code.toNat else '\uFFFD'

/-- One number in a format. -/
def render : OutputFormat → Int64 → String
  | .numbers, value => toString value.toInt ++ "\n"
  | .ascii, value => String.ofList [character value]

end OutputFormat

/-- Numbers that are handed over together. -/
abbrev Batch := List Int64

/-- Why a sink refused a batch. -/
inductive SinkError
  | full
  | refused (reason : String)
  deriving DecidableEq, Repr

/-- The wording of a refusal. -/
def SinkError.message : SinkError → String
  | .full => "failed to write whole buffer"
  | .refused reason => reason

/-- Where numbers go. A `verdict` sees the batches handed over so far, the newest
first, and answers for the newest. -/
inductive Receiver
  | text (format : OutputFormat) (writer : Writer)
  | verdict (judge : List Batch → Except SinkError Unit)

/-- A receiver and the batches it was handed, the newest first. -/
structure Sink where
  receiver : Receiver
  batches : List Batch := []

namespace Sink

/-- Write numbers one after the other, up to the first that does not fit. -/
def writeText (format : OutputFormat) : Writer → Batch → Writer × Except SinkError Unit
  | writer, [] => (writer, .ok ())
  | writer, value :: rest =>
    match writer.write (Utf8.encode (format.render value)) with
    | (writer, true) => writeText format writer rest
    | (writer, false) => (writer, .error .full)

/-- Hand a batch to a sink. -/
def write : Sink → Batch → Sink × Except SinkError Unit
  | ⟨.text format writer, batches⟩, batch =>
    let (writer, answer) := writeText format writer batch
    (⟨.text format writer, batch :: batches⟩, answer)
  | ⟨.verdict judge, batches⟩, batch =>
    (⟨.verdict judge, batch :: batches⟩, judge (batch :: batches))

/-- A sink that writes text, to a writer with a limit if one is given. -/
def toText (format : OutputFormat) (limit : Option Nat) : Sink :=
  { receiver := .text format { room := limit } }

/-- A sink that takes every batch. -/
def collecting : Sink := { receiver := .verdict fun _ => .ok () }

/-- A sink that refuses every batch for one reason. -/
def refusing (reason : String) : Sink := { receiver := .verdict fun _ => .error (.refused reason) }

/-- The bytes written by a text sink; other sinks write none. -/
def written (s : Sink) : Array UInt8 :=
  match s.receiver with
  | .text _ writer => writer.written
  | .verdict _ => #[]

/-- Every number handed over, in order. -/
def values (s : Sink) : List Int64 := s.batches.reverse.flatten

end Sink

end RingTape
