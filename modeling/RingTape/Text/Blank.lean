/-
# Blank characters

The characters of the Unicode property White_Space, and the trimming of texts by
it. Separators of the C0 block (U+001C to U+001F), the zero-width space and the
byte-order mark do not have the property and are never trimmed.
-/

namespace RingTape.Text

/-- Membership of a code point in a table of inclusive ranges. -/
def inRanges (table : List (Nat × Nat)) (c : Char) : Bool :=
  table.any fun range => range.1 ≤ c.toNat && c.toNat ≤ range.2

/-- The ranges of the property White_Space. -/
def blankRanges : List (Nat × Nat) :=
  [(0x09, 0x0D), (0x20, 0x20), (0x85, 0x85), (0xA0, 0xA0), (0x1680, 0x1680),
   (0x2000, 0x200A), (0x2028, 0x2029), (0x202F, 0x202F), (0x205F, 0x205F),
   (0x3000, 0x3000)]

/-- A character is blank when it has the property White_Space. -/
def isBlank (c : Char) : Bool := inRanges blankRanges c

/-- Drop the longest run at the end of a list whose members all satisfy `p`. -/
def dropBackWhile {α : Type} (p : α → Bool) (xs : List α) : List α :=
  (xs.reverse.dropWhile p).reverse

/-- A list of characters without the blanks at both ends. -/
def trimList (cs : List Char) : List Char :=
  dropBackWhile isBlank (cs.dropWhile isBlank)

/-- A text without the blanks at both ends. -/
def trim (s : String) : String := String.ofList (trimList s.toList)

/-- A line without the carriage returns and newlines at its end. Nothing else is
removed, so other blanks of the line survive. -/
def trimLineEnd (s : String) : String :=
  String.ofList (dropBackWhile (fun c => c = '\n' || c = '\r') s.toList)

end RingTape.Text
