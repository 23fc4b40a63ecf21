/-
# Blanks, names and strings of TOML

The lexical part of TOML 1.1: blanks and comments, bare names, and the four kinds
of strings. Control characters other than the tab stand nowhere, and a carriage
return only before a newline.
-/

import RingTape.Main.Toml.Value

namespace RingTape.Toml

/-- A blank inside a line. -/
def isBlank (c : Char) : Bool := c = ' ' || c = '\t'

/-- A character that may stand in comments and in strings of one line. -/
def isPlain (c : Char) : Bool := c = '\t' || (0x20 ≤ c.toNat && c.toNat ≠ 0x7F)

/-- Drop blanks. -/
def skipBlanks (cs : List Char) : List Char := cs.dropWhile isBlank

/-- Drop a comment, up to the end of its line. -/
def skipComment : List Char → List Char
  | '#' :: rest => rest.dropWhile isPlain
  | cs => cs

/-- Take one line ending. -/
def lineEnding? : List Char → Option (List Char)
  | '\n' :: rest => some rest
  | '\r' :: '\n' :: rest => some rest
  | _ => none

/-- Take blanks, a comment if there is one, and the end of the line or text. -/
def endOfLine? (cs : List Char) : Option (List Char) :=
  match skipComment (skipBlanks cs) with
  | [] => some []
  | cs => lineEnding? cs

/-- Drop blanks, comments and line endings, of which there are at most `fuel`. -/
def skipLines : Nat → List Char → List Char
  | 0, cs => cs
  | fuel + 1, cs =>
    match lineEnding? (skipComment (skipBlanks cs)) with
    | some rest => skipLines fuel rest
    | none => skipComment (skipBlanks cs)

/-- Drop blanks, comments and line endings. -/
def skipSpace (cs : List Char) : List Char := skipLines cs.length cs

/-- The value of a hexadecimal digit. -/
def hexDigit? (c : Char) : Option Nat :=
  if '0' ≤ c ∧ c ≤ '9' then some (c.toNat - '0'.toNat)
  else if 'a' ≤ c ∧ c ≤ 'f' then some (c.toNat - 'a'.toNat + 10)
  else if 'A' ≤ c ∧ c ≤ 'F' then some (c.toNat - 'A'.toNat + 10)
  else none

/-- Take a character given by exactly `count` hexadecimal digits. -/
def hexChar (count : Nat) : Reader Char := fun cs =>
  let digits := cs.take count
  match digits.mapM hexDigit? with
  | some values =>
    let code := values.foldl (fun acc d => 16 * acc + d) 0
    if digits.length = count ∧ code.isValidChar then some (Char.ofNat code, cs.drop count)
    else none
  | none => none

/-- Take what follows the backslash of an escape. -/
def escape : Reader Char
  | 'b' :: rest => some ('\x08', rest)
  | 't' :: rest => some ('\t', rest)
  | 'n' :: rest => some ('\n', rest)
  | 'f' :: rest => some ('\x0c', rest)
  | 'r' :: rest => some ('\r', rest)
  | 'e' :: rest => some ('\x1b', rest)
  | '"' :: rest => some ('"', rest)
  | '\\' :: rest => some ('\\', rest)
  | 'x' :: rest => hexChar 2 rest
  | 'u' :: rest => hexChar 4 rest
  | 'U' :: rest => hexChar 8 rest
  | _ => none

/-- The quote of strings without escapes. -/
def singleQuote : Char := Char.ofNat 0x27

/-- Take the rest of a one-line string that ends at `quote`, of at most `fuel`
characters. Only double quotes allow escapes. -/
def oneLine (quote : Char) : Nat → Reader (List Char)
  | 0, _ => none
  | _, [] => none
  | fuel + 1, c :: rest =>
    if c = quote then some ([], rest)
    else if c = '\\' ∧ quote = '"' then do
      let (c, rest) ← escape rest
      let (cs, rest) ← oneLine quote fuel rest
      some (c :: cs, rest)
    else if isPlain c then do
      let (cs, rest) ← oneLine quote fuel rest
      some (c :: cs, rest)
    else none

/-- Drop blanks and line endings after a backslash that ends a line. -/
def skipFold : Nat → List Char → List Char
  | 0, cs => cs
  | fuel + 1, cs =>
    match lineEnding? (skipBlanks cs) with
    | some rest => skipFold fuel rest
    | none => skipBlanks cs

/-- Take the rest of a string of many lines, of at most `fuel` characters. It ends
at three quotes, before which one or two more belong to the string. -/
def manyLines (quote : Char) : Nat → Reader (List Char)
  | 0, _ => none
  | _, [] => none
  | fuel + 1, c :: rest =>
    let go (c : List Char) (rest : List Char) : Option (List Char × List Char) := do
      let (cs, rest) ← manyLines quote fuel rest
      some (c ++ cs, rest)
    let quotes := ((c :: rest).takeWhile (· = quote)).length
    if quotes ≥ 3 then
      let taken := min quotes 5
      some (List.replicate (taken - 3) quote, (c :: rest).drop taken)
    else if c = '\\' ∧ quote = '"' then
      match lineEnding? (skipBlanks rest) with
      | some after => go [] (skipFold after.length after)
      | none => do
        let (c, rest) ← escape rest
        go [c] rest
    else if isPlain c then go [c] rest
    else do
      let after ← lineEnding? (c :: rest)
      go ['\n'] after

/-- Drop the line ending that may follow the opening quotes of many lines. -/
def skipFirstEnding (cs : List Char) : List Char := (lineEnding? cs).getD cs

/-- Take a string of one line. -/
def shortString : Reader String
  | c :: rest =>
    if c = '"' ∨ c = singleQuote then do
      let (cs, rest) ← oneLine c (rest.length + 1) rest
      some (String.ofList cs, rest)
    else none
  | [] => none

/-- Take a string of any kind. -/
def anyString : Reader String
  | a :: b :: c :: rest =>
    if a = b ∧ b = c ∧ (a = '"' ∨ a = singleQuote) then do
      let body := skipFirstEnding rest
      let (cs, rest) ← manyLines a (body.length + 1) body
      some (String.ofList cs, rest)
    else shortString (a :: b :: c :: rest)
  | cs => shortString cs

/-- A character of a bare name. -/
def isBare (c : Char) : Bool :=
  c.isAlpha || c.isDigit || c = '_' || c = '-'

/-- Take one name of a key. -/
def name : Reader String := fun cs =>
  match cs.takeWhile isBare with
  | [] => shortString cs
  | bare => some (String.ofList bare, cs.dropWhile isBare)

/-- Take the names of a key, of which there are at most `fuel`. -/
def names : Nat → Reader Key
  | 0, _ => none
  | fuel + 1, cs => do
    let (first, rest) ← name cs
    match skipBlanks rest with
    | '.' :: rest =>
      let (others, rest) ← names fuel (skipBlanks rest)
      some (first :: others, rest)
    | rest => some ([first], rest)

/-- Take a key and the blanks after it. -/
def key : Reader Key := fun cs => names (cs.length + 1) cs

end RingTape.Toml
