/-
# Byte cells

A tape in byte mode holds 64-bit numbers, calculates with 64 bits and reduces a number only
when it stores it. A tape of bytes holds unsigned 8-bit values and calculates with 8 bits.
The two are the same tape as long as every number on the first is the value of a byte.
What a number is read from then is a byte, so that steps and doubling wrap where a byte
does. Halving takes more than the remainders: it is right because the number it is given
has been reduced before.
-/

import RingTape.Tape.Basic

namespace RingTape

namespace ByteCell

/-- The value of a byte as a number of a cell. -/
def value (b : UInt8) : Int64 := Int64.ofNat b.toNat

/-- The byte that a cell keeps of a number: its remainder modulo 256. -/
def remainder (number : Int64) : UInt8 := UInt8.ofNat (number.toInt % 256).toNat

theorem toInt_value (b : UInt8) : (value b).toInt = b.toNat :=
  Int64.toInt_ofNat_of_lt (Nat.lt_trans b.toNat_lt (by decide))

theorem value_mem (b : UInt8) : 0 ≤ (value b).toInt ∧ (value b).toInt ≤ 255 := by
  have small := b.toNat_lt
  rw [toInt_value]
  omega

theorem cast_toNat_remainder (number : Int64) :
    ((remainder number).toNat : Int) = number.toInt % 256 := by
  have low := Int.emod_nonneg number.toInt (show (256 : Int) ≠ 0 by decide)
  have high := Int.emod_lt_of_pos number.toInt (show (0 : Int) < 256 by decide)
  rw [remainder, UInt8.toNat_ofNat', Nat.mod_eq_of_lt (by omega), Int.toNat_of_nonneg low]

/-- A byte cell stores the value of the byte that it keeps. -/
theorem normalize_byte (number : Int64) :
    CellMode.byte.normalize number = value (remainder number) := by
  rw [← Int64.toInt_inj, CellMode.toInt_normalize_byte, toInt_value, cast_toNat_remainder]

/-- A number is kept as the byte with its remainder. -/
theorem remainder_eq_iff (number : Int64) (b : UInt8) :
    remainder number = b ↔ number.toInt % 256 = b.toNat := by
  rw [← UInt8.toNat_inj, ← Int.natCast_inj, cast_toNat_remainder]

/-- A number from 0 to 255 is the value of the byte that is kept of it. -/
theorem value_remainder {number : Int64} (low : 0 ≤ number.toInt) (high : number.toInt ≤ 255) :
    value (remainder number) = number := by
  rw [← Int64.toInt_inj, toInt_value, cast_toNat_remainder]
  exact Int.emod_eq_of_lt low (by omega)

theorem value_eq_zero_iff (b : UInt8) : value b = 0 ↔ b = 0 := by
  rw [← Int64.toInt_inj, ← UInt8.toNat_inj, toInt_value]
  exact Int.natCast_eq_zero

/-- One more than a byte does not leave 64 bits, and wraps where the byte does. -/
theorem remainder_add_one (b : UInt8) : remainder (value b + 1) = b + 1 := by
  have small := b.toNat_lt
  have sum : (value b + 1).toInt = b.toNat + 1 := by
    rw [Int64.toInt_add, toInt_value, Int64.toInt_one]
    exact Int.bmod_eq_of_le (by omega) (by omega)
  rw [remainder_eq_iff, sum, UInt8.toNat_add]
  rfl

/-- One less than zero is negative, and its remainder is where the byte wraps to. -/
theorem remainder_sub_one (b : UInt8) : remainder (value b - 1) = b - 1 := by
  have small := b.toNat_lt
  have difference : (value b - 1).toInt = b.toNat - 1 := by
    rw [Int64.toInt_sub, toInt_value, Int64.toInt_one]
    exact Int.bmod_eq_of_le (by omega) (by omega)
  have wrapped : (b - 1).toNat = (255 + b.toNat) % 256 := UInt8.toNat_sub b 1
  rw [remainder_eq_iff, difference, wrapped]
  omega

theorem remainder_mul_two (b : UInt8) : remainder (value b * 2) = b * 2 := by
  have small := b.toNat_lt
  have two : Int64.toInt 2 = 2 := rfl
  have product : (value b * 2).toInt = b.toNat * 2 := by
    rw [Int64.toInt_mul, toInt_value, two]
    exact Int.bmod_eq_of_le (by omega) (by omega)
  rw [remainder_eq_iff, product, UInt8.toNat_mul]
  rfl

/-- The half of a byte is one, so nothing is reduced. -/
theorem remainder_div_two (b : UInt8) : remainder (value b / 2) = b / 2 := by
  have small := b.toNat_lt
  have quotient : (value b / 2).toInt = b.toNat / 2 := by
    rw [Int64.toInt_div_of_ne_right _ _ (by decide), toInt_value]
    exact Int.tdiv_eq_ediv_of_nonneg (Int.natCast_nonneg _)
  have halved : (b / 2).toNat = b.toNat / 2 := UInt8.toNat_div b 2
  rw [remainder_eq_iff, quotient, halved]
  omega

theorem remainder_zero : remainder 0 = 0 := rfl

end ByteCell

/-- A ring of bytes and the position of the pointer on it. -/
structure ByteTape where
  cells : Array UInt8
  pointer : Nat
  pointer_lt : pointer < cells.size

namespace ByteTape

open ByteCell

/-- The number of cells. -/
def size (t : ByteTape) : Nat := t.cells.size

theorem size_pos (t : ByteTape) : 0 < t.size := Nat.zero_lt_of_lt t.pointer_lt

/-- Move the pointer one cell on, around the ring. -/
def forward (t : ByteTape) : ByteTape :=
  { t with pointer := (t.pointer + 1) % t.size, pointer_lt := Nat.mod_lt _ t.size_pos }

/-- Move the pointer one cell back, around the ring. -/
def back (t : ByteTape) : ByteTape :=
  { t with pointer := (t.pointer + (t.size - 1)) % t.size, pointer_lt := Nat.mod_lt _ t.size_pos }

/-- The byte in the cell at the pointer. -/
def get : ByteTape → UInt8
  | ⟨cells, pointer, _⟩ => cells[pointer]

/-- Store a byte into the cell at the pointer. -/
def set : ByteTape → UInt8 → ByteTape
  | ⟨cells, pointer, pointer_lt⟩, b =>
    ⟨cells.set pointer b pointer_lt, pointer, (Array.size_set pointer_lt).symm ▸ pointer_lt⟩

/-- The tape in byte mode that holds the values of the bytes. -/
def toTape (t : ByteTape) : Tape where
  cells := t.cells.map value
  pointer := t.pointer
  mode := .byte
  pointer_lt := Array.size_map.symm ▸ t.pointer_lt

/-- The tape of the bytes that are kept of the numbers on a tape. -/
def ofTape (t : Tape) : ByteTape where
  cells := t.cells.map remainder
  pointer := t.pointer
  pointer_lt := Array.size_map.symm ▸ t.pointer_lt

/-- A tape in byte mode whose numbers are from 0 to 255 is one of bytes. -/
theorem toTape_ofTape {t : Tape} (byte : t.mode = .byte)
    (bytes : ∀ number ∈ t.cells, 0 ≤ number.toInt ∧ number.toInt ≤ 255) :
    (ofTape t).toTape = t := by
  refine Tape.ext ?_ rfl byte.symm
  have kept : (t.cells.map remainder).map value = t.cells.map id := by
    rw [Array.map_map]
    exact Array.map_congr_left fun number member =>
      value_remainder (bytes number member).1 (bytes number member).2
  exact kept.trans (Array.map_id _)

theorem get_toTape (t : ByteTape) : t.toTape.get = value t.get := Array.getElem_map ..

/-- Of a number that is stored, its remainder is left. -/
theorem set_toTape (t : ByteTape) {number : Int64} {b : UInt8} (left : remainder number = b) :
    t.toTape.set number = (t.set b).toTape := by
  refine Tape.ext ?_ rfl rfl
  change (t.cells.map value).set t.pointer (CellMode.byte.normalize number) t.toTape.pointer_lt =
    (t.cells.set t.pointer b t.pointer_lt).map value
  rw [Array.map_set, normalize_byte, left]

theorem forward_toTape (t : ByteTape) : t.toTape.forward = t.forward.toTape := by
  refine Tape.ext t.toTape.cells_forward ?_ t.toTape.mode_forward
  rw [Tape.pointer_forward, Tape.size, toTape, Array.size_map]
  rfl

theorem back_toTape (t : ByteTape) : t.toTape.back = t.back.toTape := by
  refine Tape.ext t.toTape.cells_back ?_ t.toTape.mode_back
  rw [Tape.pointer_back, Tape.size, toTape, Array.size_map]
  rfl

end ByteTape

end RingTape
