/-
# Decimal numbers

Reading numbers in base ten. A number may carry one sign and any number of leading
zeros; reading stops at the first fault, and a character that is no digit is found
before the value is seen to be too large.
-/

namespace RingTape.Decimal

/-- The value of an ASCII digit. -/
def digit? (c : Char) : Option Nat :=
  if '0' ≤ c ∧ c ≤ '9' then some (c.toNat - '0'.toNat) else none

/-- Why a text is no number of the wanted range. -/
inductive ReadError
  | empty
  | invalidDigit
  | tooLarge
  deriving DecidableEq, Repr

/-- The wording of a number that cannot be read. -/
def ReadError.message : ReadError → String
  | .empty => "cannot parse integer from empty string"
  | .invalidDigit => "invalid digit found in string"
  | .tooLarge => "number too large to fit in target type"

/-- Read digits onto an accumulated value that must not exceed `limit`. -/
def readDigits (limit : Nat) : Nat → List Char → Except ReadError Nat
  | acc, [] => .ok acc
  | acc, c :: rest =>
    match digit? c with
    | none => .error .invalidDigit
    | some d =>
      let value := 10 * acc + d
      if value ≤ limit then readDigits limit value rest else .error .tooLarge

/-- Read one digit or more, with a value of at most `limit`. -/
def readNonempty (limit : Nat) : List Char → Except ReadError Nat
  | [] => .error .invalidDigit
  | cs => readDigits limit 0 cs

/-- Read an unsigned number of at most `limit`, optionally after a plus sign. -/
def readNatural (limit : Nat) : List Char → Except ReadError Nat
  | [] => .error .empty
  | '+' :: rest => readNonempty limit rest
  | cs => readNonempty limit cs

/-- The largest size or position: sizes are unsigned 64-bit words. -/
def maxSize : Nat := 0xFFFFFFFFFFFFFFFF

/-- The largest signed 64-bit number. -/
def maxInt64 : Nat := 0x7FFFFFFFFFFFFFFF

/-- Read a size. -/
def size? (s : String) : Except ReadError Nat := readNatural maxSize s.toList

/-- Read a signed 64-bit number: one optional sign and one digit or more, with a
value between -2^63 and 2^63 - 1. -/
def int64? : List Char → Option Int64
  | '-' :: rest => (readNonempty (maxInt64 + 1) rest).toOption.map fun n => Int64.ofInt (-(n : Int))
  | '+' :: rest => (readNonempty maxInt64 rest).toOption.map fun n => Int64.ofInt n
  | cs => (readNonempty maxInt64 cs).toOption.map fun n => Int64.ofInt n

end RingTape.Decimal
