/-
# Quoted texts

The written form of a text inside a message: between double quotes, with escapes
for the quote, the backslash, the usual line controls and every character that
would not show by itself. A single character is written between apostrophes and
escapes the apostrophe in place of the double quote.
-/

import RingTape.Text.Printable

namespace RingTape.Text.Quoted

/-- The apostrophe, which delimits a quoted character. -/
def apostrophe : Char := Char.ofNat 0x27

/-- The double quote, which delimits a quoted text. -/
def doubleQuote : Char := Char.ofNat 0x22

/-- A code point in lowercase hexadecimal between braces. -/
def codePoint (c : Char) : List Char :=
  "\\u\x7b".toList ++ Nat.toDigits 16 c.toNat ++ ['\x7d']

/-- One character inside delimiters: two characters for the delimiter, the
backslash and NUL, TAB, LF and CR, the character itself when it is printable,
and its code point otherwise. -/
def escape (delimiter c : Char) : List Char :=
  if c = delimiter ∨ c = '\\' then ['\\', c]
  else if c = '\x00' then ['\\', '0']
  else if c = '\t' then ['\\', 't']
  else if c = '\n' then ['\\', 'n']
  else if c = '\r' then ['\\', 'r']
  else if isPrintable c then [c]
  else codePoint c

/-- The written form of a text. -/
def text (s : String) : String :=
  String.ofList (doubleQuote :: s.toList.flatMap (escape doubleQuote) ++ [doubleQuote])

/-- The written form of a character. -/
def character (c : Char) : String :=
  String.ofList (apostrophe :: escape apostrophe c ++ [apostrophe])

end RingTape.Text.Quoted
