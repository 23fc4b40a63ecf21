/-
# What a cell keeps of an integer

The arithmetic of cells wraps at 64 bits, and a byte cell keeps no more than a remainder by
256. So a cell holds an integer up to multiples of a modulus, and of all integers that it
might stand for it shows a fixed one. Two integers leave the same number in a cell exactly
if they differ by a multiple of the modulus. Sums and products of what went into a cell can
therefore be taken as integers, however often the cell wrapped on the way.
-/

import Mathlib.Data.Int.ModEq
import RingTape.Tape.Cell

namespace RingTape.CellMode

/-- How many numbers a cell can tell apart. -/
def modulus : CellMode → Nat
  | .unbounded => 2 ^ 64
  | .byte => 256

/-- The number by which a cell shows an integer: the signed one of 64 bits, or the remainder
that is the value of a byte. -/
def residue : CellMode → Int → Int
  | .unbounded, z => z.bmod (2 ^ 64)
  | .byte, z => z % 256

/-- The number that a cell holds when an integer was stored. -/
def hold (mode : CellMode) (z : Int) : Int64 := mode.normalize (Int64.ofInt z)

variable (mode : CellMode)

theorem residue_modEq (z : Int) : mode.residue z ≡ z [ZMOD mode.modulus] := by
  cases mode with
  | unbounded => exact Int.bmod_emod
  | byte => exact Int.mod_modEq z 256

/-- Integers are shown by the same number exactly if they differ by a multiple of the
modulus. -/
theorem residue_eq_residue_iff (a b : Int) :
    mode.residue a = mode.residue b ↔ a ≡ b [ZMOD mode.modulus] := by
  constructor
  · intro same
    exact (mode.residue_modEq a).symm.trans (same ▸ mode.residue_modEq b)
  · intro congruent
    cases mode with
    | unbounded =>
      have shown (z : Int) : residue .unbounded z = (z % (2 ^ 64 : Nat)).bmod (2 ^ 64) :=
        (Int.emod_bmod z (2 ^ 64)).symm
      rw [shown, shown]
      exact congrArg (Int.bmod · (2 ^ 64)) congruent
    | byte => exact congruent

/-- What is added to a residue may as well be added to the integer. -/
theorem residue_residue_add (a b : Int) :
    mode.residue (mode.residue a + b) = mode.residue (a + b) :=
  (mode.residue_eq_residue_iff _ _).mpr ((mode.residue_modEq a).add_right b)

/-- A cell shows what is stored by its residue. -/
theorem toInt_normalize (value : Int64) :
    (mode.normalize value).toInt = mode.residue value.toInt := by
  cases mode with
  | unbounded => exact (Int64.toInt_bmod value).symm
  | byte => exact toInt_normalize_byte value

/-- The wrapping at 64 bits is lost in what a cell shows. -/
theorem residue_bmod (z : Int) : mode.residue (z.bmod (2 ^ 64)) = mode.residue z := by
  have wrapped : z.bmod (2 ^ 64) ≡ z [ZMOD (2 ^ 64 : Nat)] := Int.bmod_emod
  apply (mode.residue_eq_residue_iff _ _).mpr
  cases mode with
  | unbounded => exact wrapped
  | byte => exact wrapped.of_dvd (by decide)

/-- A sum of 64-bit numbers is shown like the sum of the integers. -/
theorem toInt_normalize_add (first second : Int64) :
    (mode.normalize (first + second)).toInt = mode.residue (first.toInt + second.toInt) := by
  rw [toInt_normalize, Int64.toInt_add, residue_bmod]

/-! ## Integers that are held -/

@[simp] theorem toInt_hold (z : Int) : (mode.hold z).toInt = mode.residue z := by
  rw [hold, toInt_normalize, Int64.toInt_ofInt]
  exact mode.residue_bmod z

theorem hold_eq_hold_iff (a b : Int) : mode.hold a = mode.hold b ↔ a ≡ b [ZMOD mode.modulus] := by
  rw [← Int64.toInt_inj, toInt_hold, toInt_hold, residue_eq_residue_iff]

@[simp] theorem hold_zero : mode.hold 0 = 0 := by cases mode <;> rfl

end RingTape.CellMode
