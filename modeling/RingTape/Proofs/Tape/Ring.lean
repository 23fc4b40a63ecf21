/-
# Around the ring

A place on a tape can be given by a count of cells from any other, in either direction and
over any number of rounds. The two moves are steps of such a count, and a sum of counts
comes to the same cell in whatever order it is gone through. Storing is the one change to
the cells, and it concerns the cell at the pointer alone.
-/

import Mathlib.Data.Int.ModEq
import RingTape.Tape.Basic

namespace RingTape.Tape

/-- The index of the cell that a count around the ring from the first cell comes to. -/
def place (t : Tape) (count : Int) : Nat := (count % t.size).toNat

theorem cast_place (t : Tape) (count : Int) : (t.place count : Int) = count % t.size := by
  have positive := t.size_pos
  exact Int.toNat_of_nonneg (Int.emod_nonneg _ (by omega))

theorem place_lt (t : Tape) (count : Int) : t.place count < t.cells.size := by
  have positive : (0 : Int) < t.size := Int.natCast_pos.mpr t.size_pos
  have below : (t.place count : Int) < t.size := t.cast_place count ▸ Int.emod_lt_of_pos _ positive
  exact Int.ofNat_lt.mp below

/-- Counts come to the same cell if they differ by whole rounds. -/
theorem place_eq_place_iff (t : Tape) (first second : Int) :
    t.place first = t.place second ↔ first ≡ second [ZMOD t.size] := by
  rw [← Int.natCast_inj, cast_place, cast_place]
  rfl

theorem place_modEq (t : Tape) (count : Int) : t.place count ≡ count [ZMOD t.size] := by
  rw [cast_place]
  exact Int.mod_modEq count t.size

/-- A count that goes on from a cell may as well go on from the count to it. -/
theorem place_place_add (t : Tape) (count further : Int) :
    t.place (t.place count + further) = t.place (count + further) :=
  (t.place_eq_place_iff _ _).mpr ((t.place_modEq count).add_right further)

theorem place_of_lt {t : Tape} {index : Nat} (inside : index < t.size) :
    t.place index = index := by
  rw [place, Int.emod_eq_of_lt (by omega) (by omega), Int.toNat_natCast]

/-- The tape with its pointer moved around the ring. -/
def move (count : Int) (t : Tape) : Tape :=
  { t with pointer := t.place (t.pointer + count), pointer_lt := t.place_lt _ }

@[simp] theorem move_zero (t : Tape) : t.move 0 = t := by
  have stays : t.place (t.pointer + 0) = t.pointer :=
    (congrArg t.place (Int.add_zero _)).trans (place_of_lt t.pointer_lt)
  exact Tape.ext rfl stays rfl

theorem forward_eq_move (t : Tape) : t.forward = t.move 1 := by
  refine Tape.ext t.cells_forward ?_ t.mode_forward
  rw [move, pointer_forward, ← Int.natCast_inj, cast_place]
  push_cast
  rfl

theorem back_eq_move (t : Tape) : t.back = t.move (-1) := by
  refine Tape.ext t.cells_back ?_ t.mode_back
  have whole_round : ((t.pointer + (t.size - 1) : Nat) : Int) = t.pointer + -1 + t.size := by
    have positive := t.size_pos
    omega
  rw [move, pointer_back, ← Int.natCast_inj, cast_place, Int.natCast_emod, whole_round,
    Int.add_emod_right]

/-- The cell at the pointer is one of the cells. -/
theorem getElem?_pointer (t : Tape) : t.cells[t.pointer]? = some t.get :=
  Array.getElem?_eq_getElem t.pointer_lt

/-- Storing changes the cell at the pointer and no other. -/
theorem getElem?_cells_set (t : Tape) (value : Int64) (index : Nat) :
    (t.set value).cells[index]? =
      if index = t.pointer then some (t.mode.normalize value) else t.cells[index]? := by
  have stored : (t.set value).cells = t.cells.set t.pointer (t.mode.normalize value) t.pointer_lt :=
    rfl
  rw [stored, Array.getElem?_set]
  simp only [eq_comm]

@[simp] theorem place_set (t : Tape) (value : Int64) (count : Int) :
    (t.set value).place count = t.place count := by
  rw [place, place, size_set]

end RingTape.Tape
