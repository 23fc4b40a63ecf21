/-
# Lines of numbers

A text sink for numbers writes a line for each of them: the number in base ten, which
holds no newline and no blank, and a newline. So a stream of that text is cut into just
these lines again, nothing but its ending is trimmed off a line, and the input command takes
from it the number that was written. Behind the last line the input is exhausted.
-/

import RingTape.Proofs.Channel.Room
import RingTape.Proofs.Channel.Segments
import RingTape.Proofs.Text.Decimal

namespace RingTape

/-- The line of a number. -/
def numeral (value : Int64) : List UInt8 := Utf8.encode (OutputFormat.numbers.render value)

/-- What a text sink writes for numbers. -/
def numerals (values : List Int64) : List UInt8 :=
  ((Sink.toText .numbers none).write values).1.written.toList

/-- It is the line of each of them. -/
theorem numerals_eq (values : List Int64) : numerals values = values.flatMap numeral := by
  rw [numerals, Sink.toText_eq, Sink.write, Sink.writeText_offered]
  rfl

theorem numerals_cons (value : Int64) (rest : List Int64) :
    numerals (value :: rest) = numeral value ++ numerals rest := by
  rw [numerals_eq, numerals_eq, List.flatMap_cons]

/-- A line is the digits and the newline behind them. -/
theorem numeral_eq (value : Int64) :
    numeral value = Utf8.encode (toString value.toInt) ++ [Source.newline] := by
  rw [numeral, OutputFormat.render, Utf8.encode_append]
  rfl

/-- There is no other newline in it. -/
theorem newline_notMem_toString (z : Int) : Source.newline ∉ Utf8.encode (toString z) := by
  have between {c : Char} (member : c ∈ (toString z).toList) :
      10 < c.toNat ∧ c.toNat < 0x80 := by
    rcases Decimal.mem_toString member with rfl | digit
    · decide
    · obtain ⟨low, high⟩ := Bool.and_eq_true_iff.mp digit
      have low' : 48 ≤ c.toNat := of_decide_eq_true low
      have high' : c.toNat ≤ 57 := of_decide_eq_true high
      omega
  have bytes := Utf8.encode_ofList_ascii fun c member => (between (c := c) member).2
  rw [String.ofList_toList] at bytes
  rw [bytes]
  intro member
  obtain ⟨c, spelled, equal⟩ := List.mem_map.mp member
  obtain ⟨above, below⟩ := between spelled
  have code := congrArg UInt8.toNat equal
  rw [UInt8.toNat_ofNat'] at code
  have newline : Source.newline.toNat = 10 := rfl
  omega

/-- The first line of the text is the line of the first number. -/
theorem firstLine_numeral (value : Int64) (rest : List UInt8) :
    Source.firstLine (numeral value ++ rest) = (numeral value, rest) := by
  rw [numeral_eq, List.append_assoc,
    Source.firstLine_append_of_notMem (newline_notMem_toString value.toInt)]
  rfl

theorem numeral_ne_nil (value : Int64) : numeral value ≠ [] := by
  rw [numeral_eq]
  exact List.append_ne_nil_of_right_ne_nil _ (List.cons_ne_nil _ _)

/-- In the line of a number the input command finds that number. -/
theorem numberOn_numeral (value : Int64) : Source.numberOn (some (numeral value)) = .ok value := by
  have solid (c : Char) (member : c ∈ (toString value.toInt).toList) :
      Text.isBlank c = false := by
    rcases Decimal.mem_toString member with rfl | digit
    · decide
    · exact Text.isBlank_of_isDigit digit
  have trimmed : Text.trimList (OutputFormat.numbers.render value).toList =
      (toString value.toInt).toList := by
    rw [OutputFormat.render, String.toList_append]
    exact (Text.trimList_concat (by decide) _).trans (Text.trimList_of_not_blank solid)
  rw [Source.numberOn, numeral, Utf8.decode?_encode]
  simp only [trimmed, Decimal.int64?_toString]

/-- The number that is to be taken next, if there is one. -/
def nextNumber : Option Int64 → Except InputProblem Int64
  | some value => .ok value
  | none => .error .exhausted

namespace Source

/-- A reading of the text takes the next number, -/
theorem number_read_numerals (values : List Int64) :
    (stream (numerals values)).read.1.number = nextNumber values.head? := by
  cases values with
  | nil => rfl
  | cons value rest =>
    have nonempty : some (numeral value) ≠ some [] :=
      fun empty => numeral_ne_nil value (Option.some.inj empty)
    rw [read, numerals_cons, firstLine_numeral]
    exact (number_segmentReading nonempty).trans (numberOn_numeral value)

/-- and leaves the text of the others. -/
theorem rest_read_numerals (values : List Int64) :
    (stream (numerals values)).read.2 = .stream (numerals values.tail) := by
  cases values with
  | nil => rfl
  | cons value rest =>
    rw [read, numerals_cons, firstLine_numeral]
    rfl

end Source

/-- The extremes have lines of twenty and nineteen digits. -/
example : numeral Int64.minValue = Utf8.encode "-9223372036854775808\n" ∧
    numeral Int64.maxValue = Utf8.encode "9223372036854775807\n" := ⟨by decide, by decide⟩

end RingTape
