/-
# Cells

A cell holds a signed 64-bit number and arithmetic on it wraps. The mode of a
tape says how a number is stored: as it is, or reduced to the eight bits of a
byte cell. The mode says nothing about arithmetic, only about storing.
-/

import RingTape.Text.Blank

namespace RingTape

/-- How numbers are stored into cells. -/
inductive CellMode
  | unbounded
  | byte
  deriving DecidableEq, Repr, Inhabited

namespace CellMode

/-- The number that is stored for `value`: a byte cell keeps the remainder
between 0 and 255, also of a negative number. -/
def normalize : CellMode → Int64 → Int64
  | .unbounded, value => value
  | .byte, value => Int64.ofInt (value.toInt % 256)

@[simp] theorem normalize_unbounded (value : Int64) : normalize .unbounded value = value := rfl

/-- A byte cell holds the remainder of the number modulo 256. -/
theorem toInt_normalize_byte (value : Int64) :
    (normalize .byte value).toInt = value.toInt % 256 := by
  have low := Int.emod_nonneg value.toInt (show (256 : Int) ≠ 0 by decide)
  have high := Int.emod_lt_of_pos value.toInt (show (0 : Int) < 256 by decide)
  exact Int64.toInt_ofInt_of_le (by simp; omega) (by simp; omega)

/-- What a mode stored once it stores again unchanged. -/
@[simp] theorem normalize_normalize (mode : CellMode) (value : Int64) :
    mode.normalize (mode.normalize value) = mode.normalize value := by
  cases mode with
  | unbounded => rfl
  | byte => rw [← Int64.toInt_inj, toInt_normalize_byte, toInt_normalize_byte, Int.emod_emod]

/-- The name of a mode. -/
def name : CellMode → String
  | .unbounded => "unbounded"
  | .byte => "byte"

/-- The mode of that exact name. -/
def ofName? (s : String) : Option CellMode :=
  if s = "unbounded" then some .unbounded else if s = "byte" then some .byte else none

@[simp] theorem ofName?_name (mode : CellMode) : ofName? mode.name = some mode := by
  cases mode <;> rfl

/-- Read a mode, in any case and between blanks. A text that names none is
answered by the message that says so. -/
def read (s : String) : Except String CellMode :=
  let key := (Text.trim s).map Char.toLower
  match ofName? key with
  | some mode => .ok mode
  | none => .error ("invalid cell mode '" ++ key ++ "', must be 'unbounded' or 'byte'")

end CellMode

end RingTape
