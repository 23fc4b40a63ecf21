/-
# Sources

A source answers each reading with a line, with the end of input, or with a
failure. A stream of bytes gives its lines in order: a line ends just after a
newline byte, or where the stream ends, and a line that is no valid text is
consumed and answered by a failure. Any other source is a sequence of answers.
-/

import RingTape.Text.Utf8

namespace RingTape

/-- Why a line could not be read. -/
inductive ReadError
  | invalidText
  | failed (reason : String)
  deriving DecidableEq, Repr

/-- The wording of a line that could not be read. -/
def ReadError.message : ReadError → String
  | .invalidText => "stream did not contain valid UTF-8"
  | .failed reason => reason

/-- The answer to one reading: a line with its ending, `none` at the end of input,
or a failure. -/
abbrev Reading := Except ReadError (Option String)

/-- Where lines come from. -/
inductive Source
  | stream (bytes : List UInt8)
  | answers (nth : Nat → Reading) (asked : Nat)

namespace Source

/-- The newline byte, which ends a line and belongs to it. -/
def newline : UInt8 := 0x0A

/-- Cut the first line off a stream. -/
def firstLine : List UInt8 → List UInt8 × List UInt8
  | [] => ([], [])
  | b :: rest =>
    if b = newline then ([b], rest)
    else
      let (line, others) := firstLine rest
      (b :: line, others)

/-- Cutting loses nothing. -/
theorem firstLine_append (bytes : List UInt8) :
    (firstLine bytes).1 ++ (firstLine bytes).2 = bytes := by
  induction bytes with
  | nil => rfl
  | cons b rest ih => by_cases h : b = newline <;> simp [firstLine, h, ih]

/-- The answer that a segment of a stream gives; an empty one is the end of input. -/
def segmentReading (segment : List UInt8) : Reading :=
  if segment.isEmpty then .ok none
  else
    match Utf8.decode? segment with
    | some line => .ok (some line)
    | none => .error .invalidText

/-- Read one line. -/
def read : Source → Reading × Source
  | .stream bytes =>
    let (line, rest) := firstLine bytes
    (segmentReading line, .stream rest)
  | .answers nth asked => (nth asked, .answers nth (asked + 1))

/-- A source that gives the answers of a list and then the end of input. -/
def scripted (script : List Reading) : Source :=
  .answers (fun n => script[n]?.getD (.ok none)) 0

end Source

end RingTape
