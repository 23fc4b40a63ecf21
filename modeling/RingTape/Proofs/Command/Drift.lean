/-
# How far a tape has drifted

What built-in commands other than input do to a tape is told by two amounts: how far the
pointer was moved, and what was added to each cell. Both are integers. They come to the
tape around the ring and around the range of a cell, but that is done once and at the end:
a further command adds to the amounts, whatever was wrapped before it.
-/

import RingTape.Proofs.Command.Inverse
import RingTape.Proofs.Tape.Ring

namespace RingTape

namespace Builtin

/-- How far a command moves the pointer. -/
def motion : Builtin → Int
  | right => 1
  | left => -1
  | _ => 0

/-- What a command adds to the cell at the pointer. Input is not of this kind. -/
def step : Builtin → Int
  | increment => 1
  | decrement => -1
  | _ => 0

end Builtin

namespace Tape

/-- The tape `after` is the tape `before` with its pointer moved by `travel` and with
`change` added to each cell. -/
structure Drifts (before : Tape) (travel : Int) (change : Nat → Int) (after : Tape) : Prop where
  size_eq : after.size = before.size
  mode_eq : after.mode = before.mode
  pointer_eq : (after.pointer : Int) = (before.pointer + travel) % before.size
  cells_eq : ∀ cell, after.cells[cell]?.map Int64.toInt =
    before.cells[cell]?.map fun value => before.mode.residue (value.toInt + change cell)

variable {size : Nat} {mode : CellMode} {before t : Tape} {travel : Int} {change : Nat → Int}

/-- Nothing is added to a cell by storing anew what it could be left with. -/
theorem Sound.residue_of_mem (sound : t.Sound size mode) {value : Int64} (held : value ∈ t.cells) :
    t.mode.residue value.toInt = value.toInt := by
  rw [← CellMode.toInt_normalize, sound.normalize_of_mem held]

/-- A sound tape has not drifted from itself. -/
theorem Sound.drifts_zero (sound : t.Sound size mode) : t.Drifts 0 (fun _ => 0) t where
  size_eq := rfl
  mode_eq := rfl
  pointer_eq := by
    have inside : t.pointer < t.size := t.pointer_lt
    rw [Int.add_zero]
    exact (Int.emod_eq_of_lt (Int.natCast_nonneg _) (Int.ofNat_lt.mpr inside)).symm
  cells_eq cell := by
    cases held : t.cells[cell]? with
    | none => rfl
    | some value =>
      have kept := sound.residue_of_mem (Array.mem_of_getElem? held)
      rw [Option.map_some, Option.map_some, Int.add_zero, kept]

namespace Drifts

/-- A cell to which nothing was added is as it was. -/
theorem getElem?_eq (drifts : before.Drifts travel change t) (sound : before.Sound size mode)
    {cell : Nat} (untouched : change cell = 0) : t.cells[cell]? = before.cells[cell]? := by
  have kept := drifts.cells_eq cell
  have begun := sound.drifts_zero.cells_eq cell
  rw [untouched] at kept
  exact Option.map_injective (fun _ _ => Int64.toInt_inj.mp) (kept.trans begun.symm)

/-- A cell shows the residue of what it was and what was added. -/
theorem toInt_of_getElem? (drifts : before.Drifts travel change t) {cell : Nat} {first last : Int64}
    (begun : before.cells[cell]? = some first) (ended : t.cells[cell]? = some last) :
    last.toInt = before.mode.residue (first.toInt + change cell) := by
  have kept := drifts.cells_eq cell
  rw [begun, ended] at kept
  exact Option.some.inj kept

/-- Amounts that differ by whole rounds come to the same tape. -/
theorem congr (drifts : before.Drifts travel change t) {again : Nat → Int}
    (congruent : ∀ cell, change cell ≡ again cell [ZMOD before.mode.modulus]) :
    before.Drifts travel again t where
  size_eq := drifts.size_eq
  mode_eq := drifts.mode_eq
  pointer_eq := drifts.pointer_eq
  cells_eq cell := by
    have same (value : Int64) : before.mode.residue (value.toInt + change cell) =
        before.mode.residue (value.toInt + again cell) :=
      (before.mode.residue_eq_residue_iff _ _).mpr ((congruent cell).add_left _)
    rw [drifts.cells_eq cell]
    exact congrArg (before.cells[cell]?.map ·) (funext same)

/-- A move goes on from where the pointer is. -/
theorem move (drifts : before.Drifts travel change t) (count : Int) :
    before.Drifts (travel + count) change (t.move count) where
  size_eq := drifts.size_eq
  mode_eq := drifts.mode_eq
  pointer_eq := by
    have moved : ((t.move count).pointer : Int) = (t.pointer + count) % t.size :=
      t.cast_place _
    rw [moved, drifts.pointer_eq, drifts.size_eq, Int.emod_add_emod, Int.add_assoc]
  cells_eq := drifts.cells_eq

/-- What is added to the cell at the pointer is added to what went there before. -/
theorem add (drifts : before.Drifts travel change t) (value : Int64) :
    before.Drifts travel (fun cell => change cell + if cell = t.pointer then value.toInt else 0)
      (t.set (t.get + value)) where
  size_eq := (t.size_set _).trans drifts.size_eq
  mode_eq := drifts.mode_eq
  pointer_eq := drifts.pointer_eq
  cells_eq cell := by
    rw [Tape.getElem?_cells_set]
    split
    · next here =>
      have held := drifts.cells_eq cell
      rw [here, Tape.getElem?_pointer, Option.map_some] at held
      obtain ⟨first, begun, counted⟩ := Option.map_eq_some_iff.mp held.symm
      rw [here, begun, Option.map_some, Option.map_some, CellMode.toInt_normalize_add,
        drifts.mode_eq, ← counted, CellMode.residue_residue_add, Int.add_assoc]
    · rw [Int.add_zero]
      exact drifts.cells_eq cell

/-- Every command but input adds its own to both amounts. -/
theorem onTape (drifts : before.Drifts travel change t) {b : Builtin} (reads : b ≠ .input)
    (reading : Reading) :
    before.Drifts (travel + b.motion)
      (fun cell => change cell + if cell = t.pointer then b.step else 0)
      ((Primitive.builtin b).onTape reading t) := by
  have unchanged {after : Tape} {count : Int} (moved : after = t.move count) :
      before.Drifts (travel + count)
        (fun cell => change cell + if cell = t.pointer then 0 else 0) after := by
    simp only [ite_self, Int.add_zero, moved]
    exact drifts.move count
  have unmoved (value : Int64) : before.Drifts (travel + 0)
      (fun cell => change cell + if cell = t.pointer then value.toInt else 0)
      (t.set (t.get + value)) := by
    rw [Int.add_zero]
    exact drifts.add value
  cases b with
  | right => exact unchanged t.forward_eq_move
  | left => exact unchanged t.back_eq_move
  | increment => exact unmoved 1
  | decrement =>
    -- To take one away is to add minus one.
    have added : t.get - 1 = t.get + -1 := Int64.sub_eq_add_neg _ _
    rw [Primitive.onTape, added]
    exact unmoved (-1)
  | output => exact unchanged t.move_zero.symm
  | input => exact absurd rfl reads

end Drifts

end Tape

end RingTape
