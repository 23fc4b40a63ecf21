/-
# Numbers and times of TOML

The values that are written without quotes: truth values, integers in four bases,
floating-point numbers, and dates and times. Digits may be grouped by single
underscores, and decimal numbers have no leading zeros. Integers past 128 bits and
floating-point numbers past the range of 64-bit floats are refused.
-/

import RingTape.Main.Toml.Text

namespace RingTape.Toml

/-- The digits after a first one, each perhaps after an underscore. -/
def moreDigits (value? : Char → Option Nat) : List Char → List Nat × List Char
  | [] => ([], [])
  | [c] =>
    match value? c with
    | some d => ([d], [])
    | none => ([], [c])
  | c :: d :: rest =>
    match value? c with
    | some n =>
      let (ds, rest) := moreDigits value? (d :: rest)
      (n :: ds, rest)
    | none =>
      match value? d with
      | some n =>
        if c = '_' then
          let (ds, rest) := moreDigits value? rest
          (n :: ds, rest)
        else ([], c :: d :: rest)
      | none => ([], c :: d :: rest)

/-- Take one digit or more. -/
def digits (value? : Char → Option Nat) : Reader (List Nat)
  | [] => none
  | c :: rest => do
    let first ← value? c
    let (others, rest) := moreDigits value? rest
    some (first :: others, rest)

/-- The value of digits in a base. -/
def ofDigits (base : Nat) (ds : List Nat) : Nat := ds.foldl (fun acc d => base * acc + d) 0

/-- The value of a digit of a base of at most sixteen. -/
def digitOf (base : Nat) (c : Char) : Option Nat := (hexDigit? c).filter (· < base)

/-- An integer of at most 128 bits, with or without a sign. -/
def integer? (negative : Bool) (n : Nat) : Option Value :=
  let value : Int := if negative then -(n : Int) else n
  let half : Int := Nat.pow 2 127
  if -half ≤ value ∧ value < 2 * half then some (.integer value) else none

/-- All of a text as an integer of a base other than ten. -/
def basedInteger? (base : Nat) (cs : List Char) : Option Value :=
  match digits (digitOf base) cs with
  | some (ds, []) => integer? false (ofDigits base ds)
  | _ => none

/-- A decimal number that 64-bit floats can round: the mantissa, without its point,
times a power of ten lies below the middle between the largest float and 2^1024. -/
def isFloatRange (mantissa : List Nat) (exponent : Int) : Bool :=
  let m := mantissa.dropWhile (· = 0)
  let magnitude := (m.length : Int) + exponent
  let bound := Nat.pow 2 1024 - Nat.pow 2 970
  if m.isEmpty || magnitude < 300 then true
  else if magnitude > 320 then false
  else if 0 ≤ exponent then ofDigits 10 m * Nat.pow 10 exponent.toNat < bound
  else ofDigits 10 m < bound * Nat.pow 10 (-exponent).toNat

/-- All of a text as the exponent of a floating-point number, if it has one. -/
def exponent? : List Char → Option Int
  | [] => some 0
  | e :: rest =>
    if e = 'e' ∨ e = 'E' then
      let (negative, rest) := match rest with
        | '-' :: rest => (true, rest)
        | '+' :: rest => (false, rest)
        | rest => (false, rest)
      match digits (digitOf 10) rest with
      | some (ds, []) => some (if negative then -(ofDigits 10 ds : Int) else ofDigits 10 ds)
      | _ => none
    else none

/-- All of a text, after its sign, as a decimal integer or floating-point number. -/
def decimal? (negative : Bool) (cs : List Char) : Option Value := do
  let (whole, rest) ← digits (digitOf 10) cs
  if whole.head? = some 0 ∧ whole.length ≠ 1 then none
  else
    match rest with
    | [] => integer? negative (ofDigits 10 whole)
    | '.' :: rest => do
      let (fraction, rest) ← digits (digitOf 10) rest
      let exponent ← exponent? rest
      if isFloatRange (whole ++ fraction) (exponent - fraction.length) then some .float else none
    | rest => do
      let exponent ← exponent? rest
      if isFloatRange whole exponent then some .float else none

/-- All of a text as a number. A sign stands before decimal numbers only. -/
def number? (cs : List Char) : Option Value :=
  let signed (negative : Bool) (cs : List Char) : Option Value :=
    if cs = "inf".toList ∨ cs = "nan".toList then some .float else decimal? negative cs
  match cs with
  | '+' :: rest => signed false rest
  | '-' :: rest => signed true rest
  | '0' :: 'x' :: rest => basedInteger? 16 rest
  | '0' :: 'o' :: rest => basedInteger? 8 rest
  | '0' :: 'b' :: rest => basedInteger? 2 rest
  | _ => signed false cs

/-- Take a number of exactly `count` digits. -/
def fixedDigits (count : Nat) : Reader Nat := fun cs => do
  let ds ← (cs.take count).mapM (digitOf 10)
  if ds.length = count then some (ofDigits 10 ds, cs.drop count) else none

/-- The number of days of a month. -/
def monthDays (year month : Nat) : Nat :=
  if month = 2 then
    if year % 4 = 0 ∧ (year % 100 ≠ 0 ∨ year % 400 = 0) then 29 else 28
  else if month = 4 ∨ month = 6 ∨ month = 9 ∨ month = 11 then 30
  else 31

/-- Take a separator. -/
def separator (c : Char) : List Char → Option (List Char)
  | d :: rest => if c = d then some rest else none
  | [] => none

/-- Take a date. -/
def date? (cs : List Char) : Option (List Char) := do
  let (year, cs) ← fixedDigits 4 cs
  let (month, cs) ← fixedDigits 2 (← separator '-' cs)
  let (day, cs) ← fixedDigits 2 (← separator '-' cs)
  if 1 ≤ month ∧ month ≤ 12 ∧ 1 ≤ day ∧ day ≤ monthDays year month then some cs else none

/-- Take the fraction of a second, if there is one. -/
def fraction? : List Char → Option (List Char)
  | '.' :: rest =>
    match rest.takeWhile Char.isDigit with
    | [] => none
    | _ => some (rest.dropWhile Char.isDigit)
  | cs => some cs

/-- Take a time of day. Seconds may be left out, and a leap second is one. -/
def clock? (cs : List Char) : Option (List Char) := do
  let (hour, cs) ← fixedDigits 2 cs
  let (minute, cs) ← fixedDigits 2 (← separator ':' cs)
  if 23 < hour ∨ 59 < minute then none
  else
    match cs with
    | ':' :: cs => do
      let (second, cs) ← fixedDigits 2 cs
      if 60 < second then none else fraction? cs
    | cs => some cs

/-- All of a text as the offset of a time, if it has one. -/
def isOffset (cs : List Char) : Bool :=
  match cs with
  | [] => true
  | ['Z'] | ['z'] => true
  | c :: rest =>
    if c = '+' ∨ c = '-' then
      match (do
        let (hour, cs) ← fixedDigits 2 rest
        let (minute, cs) ← fixedDigits 2 (← separator ':' cs)
        some (hour ≤ 23 ∧ minute ≤ 59 ∧ cs = [] : Bool)) with
      | some ok => ok
      | none => false
    else false

/-- All of a text as a date, a time of day or both. -/
def isTime (cs : List Char) : Bool :=
  match date? cs with
  | some [] => true
  | some (c :: rest) =>
    (c = 'T' || c = 't' || c = ' ') &&
      match clock? rest with
      | some offset => isOffset offset
      | none => false
  | none => clock? cs = some []

/-- A character of an unquoted value. -/
def isScalar (c : Char) : Bool := isBare c || c = '+' || c = '.' || c = ':'

/-- All of a text as an unquoted value. -/
def scalarOf? (cs : List Char) : Option Value :=
  if cs = "true".toList then some (.boolean true)
  else if cs = "false".toList then some (.boolean false)
  else if isTime cs then some .time
  else number? cs

/-- Take an unquoted value. A date goes on after one space if a digit follows. -/
def scalar : Reader Value := fun cs =>
  let word := cs.takeWhile isScalar
  let rest := cs.dropWhile isScalar
  let plain := (scalarOf? word).map fun v => (v, rest)
  match rest with
  | ' ' :: c :: after =>
    if date? word = some [] ∧ c.isDigit then
      let more := (c :: after).takeWhile isScalar
      (scalarOf? (word ++ ' ' :: more)).map fun v => (v, (c :: after).dropWhile isScalar)
    else plain
  | _ => plain

end RingTape.Toml
