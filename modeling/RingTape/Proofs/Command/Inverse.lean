/-
# Commands that undo each other

The two moves undo each other, and so do the two steps of one. For the moves this is the
ring. For the steps it is the arithmetic of a cell: a number that was stored is taken back
exactly, at the ends of 64 bits because the arithmetic wraps there, and in a byte cell
because 256 divides what it wraps by. Only a number that its cell could not hold would come
back as another one, and no tape has such numbers.
-/

import RingTape.Proofs.Command.Primitive
import RingTape.Proofs.Machine.Soundness
import RingTape.Proofs.Tape.Residue

namespace RingTape

namespace CellMode

/-- A difference is stored for a number as it is for what was stored of the number. -/
theorem normalize_normalize_sub (mode : CellMode) (number step : Int64) :
    mode.normalize (mode.normalize number - step) = mode.normalize (number - step) := by
  rw [Int64.sub_eq_add_neg, Int64.sub_eq_add_neg, ← Int64.toInt_inj, toInt_normalize_add,
    toInt_normalize_add, toInt_normalize, residue_residue_add]

end CellMode

namespace Tape

variable {size : Nat} {mode : CellMode} {t : Tape}

/-- Of two numbers stored in turn the second is left. -/
@[simp] theorem set_set (t : Tape) (first second : Int64) :
    (t.set first).set second = t.set second := by
  apply Tape.ext
  · exact Array.set_set _ t.pointer_lt
  · rfl
  · rfl

/-- To store what the cell holds changes nothing. -/
theorem set_of_normalize_eq {value : Int64} (held : t.mode.normalize value = t.get) :
    t.set value = t := by
  apply Tape.ext
  · show t.cells.set t.pointer (t.mode.normalize value) t.pointer_lt = t.cells
    rw [held]
    exact Array.set_getElem_self t.pointer_lt
  · rfl
  · rfl

/-- A cell of a sound tape holds a number as it would be stored. -/
theorem Sound.normalize_of_mem (sound : t.Sound size mode) {value : Int64}
    (held : value ∈ t.cells) : t.mode.normalize value = value := by
  cases cell : t.mode with
  | unbounded => rfl
  | byte =>
    obtain ⟨low, high⟩ := sound.bytes (sound.mode_eq.symm.trans cell) value held
    rw [← Int64.toInt_inj, CellMode.toInt_normalize_byte]
    exact Int.emod_eq_of_lt low (by omega)

theorem Sound.normalize_get (sound : t.Sound size mode) : t.mode.normalize t.get = t.get :=
  sound.normalize_of_mem (Array.mem_of_getElem? sound.get_eq)

/-- What was added to a cell can be taken from it again. -/
theorem Sound.set_sub_set_add (sound : t.Sound size mode) (step : Int64) :
    (t.set (t.get + step)).set ((t.set (t.get + step)).get - step) = t := by
  rw [set_set, get_set]
  apply set_of_normalize_eq
  rw [CellMode.normalize_normalize_sub, Int64.add_sub_cancel, sound.normalize_get]

end Tape

namespace Builtin

/-- The command that undoes another one. Output and input cannot be undone. -/
def inverse? : Builtin → Option Builtin
  | right => some left
  | left => some right
  | increment => some decrement
  | decrement => some increment
  | output => none
  | input => none

/-- Commands undo each other. -/
theorem inverse?_inverse {b b' : Builtin} (inverse : b.inverse? = some b') :
    b'.inverse? = some b := by
  cases b <;> cases inverse <;> rfl

end Builtin

namespace Primitive

variable {size : Nat} {mode : CellMode} {t : Tape} {b b' : Builtin}

/-- The tape is as before when a command was undone. -/
theorem onTape_inverse (inverse : b.inverse? = some b') (sound : t.Sound size mode)
    (reading : Reading) :
    (builtin b').onTape reading ((builtin b).onTape reading t) = t := by
  cases b with
  | right =>
    obtain rfl := Option.some.inj inverse
    exact t.back_forward
  | left =>
    obtain rfl := Option.some.inj inverse
    exact t.forward_back
  | increment =>
    obtain rfl := Option.some.inj inverse
    exact sound.set_sub_set_add 1
  | decrement =>
    obtain rfl := Option.some.inj inverse
    -- To take one away is to add minus one.
    have undone := sound.set_sub_set_add (-1)
    rw [Int64.sub_neg, ← Int64.sub_eq_add_neg] at undone
    exact undone
  | output => cases inverse
  | input => cases inverse

/-- A command that can be undone hands nothing to observers and reads nothing. -/
theorem silent_of_inverse (inverse : b.inverse? = some b') (position : Option Nat)
    (reading : Reading) (source : Source) (t : Tape) :
    (builtin b).effects position reading t = [] ∧ (builtin b).onSource source = source := by
  cases b with
  | output => cases inverse
  | input => cases inverse
  | _ => exact ⟨rfl, rfl⟩

end Primitive

namespace Machine

variable {size : Nat} {mode : CellMode} {m : Machine} {b b' : Builtin}

/-- A command that can be undone changes the tape and nothing else. -/
theorem performAt_of_inverse (inverse : b.inverse? = some b') (position : Nat) (m : Machine) :
    m.performAt position b.routine =
      { m with tape := (Primitive.builtin b).onTape m.source.read.1 m.tape, position := none } := by
  obtain ⟨silent, unread⟩ :=
    Primitive.silent_of_inverse inverse (some position) m.source.read.1 m.source m.tape
  have performed := performAt_primitive (.builtin b) position m
  rw [silent, unread, told_nil] at performed
  exact performed

/-- A command and the one that undoes it leave a machine as it was, whatever their
positions are. -/
theorem performAt_performAt_inverse (inverse : b.inverse? = some b')
    (sound : m.tape.Sound size mode) (first second : Nat) :
    (m.performAt first b.routine).performAt second b'.routine = { m with position := none } := by
  rw [performAt_of_inverse inverse, performAt_of_inverse (Builtin.inverse?_inverse inverse)]
  exact congrArg (fun tape => { m with tape, position := none })
    (Primitive.onTape_inverse inverse sound m.source.read.1)

end Machine

end RingTape
