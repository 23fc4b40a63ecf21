/-
# The circular tape

A tape is a ring of cells with one pointer. It never has zero cells and the
pointer never leaves it, so reading and storing at the pointer always succeed;
a step past either end arrives at the other. The type carries that fact. What it
does not carry is the range of byte cells: storing keeps it, and a tape that was
built by `new` starts with it. A step either way counts around the ring and is
undone by a step the other way.
-/

import RingTape.Tape.Cell

namespace RingTape

/-- A ring of cells, the position of the pointer on it and the mode of storing. -/
@[ext] structure Tape where
  cells : Array Int64
  pointer : Nat
  mode : CellMode
  pointer_lt : pointer < cells.size

/-- Why a tape cannot be built. -/
inductive TapeError
  | empty
  | tooLarge (size : Nat)
  deriving DecidableEq, Repr

/-- The wording of a tape that cannot be built. -/
def TapeError.message : TapeError → String
  | .empty => "tape must have at least one cell"
  | .tooLarge size => "cannot allocate a tape of " ++ toString size ++ " cells"

namespace Tape

/-- The number of cells unless another is asked for. -/
def defaultSize : Nat := 30000

/-- The first size that is too large: eight bytes a cell must stay below 2^63. -/
def sizeBound : Nat := 0x1000000000000000

/-- The tape of `size` zero cells with the pointer on the first of them. -/
def blank (size : Nat) (mode : CellMode) (positive : 0 < size) : Tape :=
  { cells := Array.replicate size 0, pointer := 0, mode, pointer_lt := by simpa using positive }

/-- Build a tape of zeros, of any size from one cell up to the bound, if the system grants
memory for so many cells. -/
def new (grants : Nat → Bool) (size : Nat) (mode : CellMode) : Except TapeError Tape :=
  if positive : 0 < size then
    if size < sizeBound ∧ grants size then .ok (blank size mode positive)
    else .error (.tooLarge size)
  else .error .empty

/-- The tape of the default size in the default mode. -/
def default : Tape := blank defaultSize .unbounded (by decide)

instance : Inhabited Tape := ⟨default⟩

/-- The number of cells. -/
def size (t : Tape) : Nat := t.cells.size

theorem size_pos (t : Tape) : 0 < t.size := Nat.lt_of_le_of_lt (Nat.zero_le _) t.pointer_lt

/-- A tape is never empty. -/
def isEmpty (t : Tape) : Bool := t.cells.isEmpty

/-- Move the pointer to the next cell, from the last cell to the first. -/
def forward : Tape → Tape
  | ⟨cells, pointer, mode, pointer_lt⟩ =>
    if h : pointer + 1 < cells.size then ⟨cells, pointer + 1, mode, h⟩
    else ⟨cells, 0, mode, Nat.lt_of_le_of_lt (Nat.zero_le _) pointer_lt⟩

/-- Move the pointer to the cell before, from the first cell to the last. -/
def back : Tape → Tape
  | ⟨cells, 0, mode, pointer_lt⟩ => ⟨cells, cells.size - 1, mode, Nat.sub_one_lt_of_lt pointer_lt⟩
  | ⟨cells, pointer + 1, mode, pointer_lt⟩ => ⟨cells, pointer, mode, Nat.lt_of_succ_lt pointer_lt⟩

/-- The number in the cell at the pointer. -/
def get : Tape → Int64
  | ⟨cells, pointer, _, _⟩ => cells[pointer]

/-- Store a number into the cell at the pointer. -/
def set : Tape → Int64 → Tape
  | ⟨cells, pointer, mode, pointer_lt⟩, value =>
    ⟨cells.set pointer (mode.normalize value) pointer_lt, pointer, mode, by simpa using pointer_lt⟩

/-- Zero every cell and move the pointer to the first of them. -/
def reset (t : Tape) : Tape := blank t.size t.mode t.size_pos

/-! ## Laws of the operations -/

@[simp] theorem size_blank (size : Nat) (mode : CellMode) (positive : 0 < size) :
    (blank size mode positive).size = size := by simp [blank, Tape.size]

@[simp] theorem cells_forward (t : Tape) : t.forward.cells = t.cells := by
  cases t
  simp only [forward]
  split <;> rfl

@[simp] theorem mode_forward (t : Tape) : t.forward.mode = t.mode := by
  cases t
  simp only [forward]
  split <;> rfl

@[simp] theorem cells_back (t : Tape) : t.back.cells = t.cells := by
  unfold back
  split <;> rfl

@[simp] theorem mode_back (t : Tape) : t.back.mode = t.mode := by
  unfold back
  split <;> rfl

@[simp] theorem size_forward (t : Tape) : t.forward.size = t.size := by simp [size]

@[simp] theorem size_back (t : Tape) : t.back.size = t.size := by simp [size]

@[simp] theorem size_set (t : Tape) (value : Int64) : (t.set value).size = t.size := by
  simp [set, size]

@[simp] theorem size_reset (t : Tape) : t.reset.size = t.size := by simp [reset]

/-- A step forward adds one around the ring. -/
theorem pointer_forward (t : Tape) : t.forward.pointer = (t.pointer + 1) % t.size := by
  obtain ⟨cells, pointer, mode, pointer_lt⟩ := t
  simp only [forward, size]
  split
  · next h => exact (Nat.mod_eq_of_lt h).symm
  · next h => rw [show pointer + 1 = cells.size by omega, Nat.mod_self]

/-- A step back takes one away around the ring. -/
theorem pointer_back (t : Tape) : t.back.pointer = (t.pointer + (t.size - 1)) % t.size := by
  obtain ⟨cells, pointer, mode, pointer_lt⟩ := t
  simp only [size]
  cases pointer with
  | zero =>
    rw [Nat.zero_add, Nat.mod_eq_of_lt (by omega)]
    rfl
  | succ pointer =>
    rw [show pointer + 1 + (cells.size - 1) = pointer + cells.size by omega,
      Nat.add_mod_right, Nat.mod_eq_of_lt (by omega)]
    rfl

/-- A step back undoes a step forward. -/
@[simp] theorem back_forward (t : Tape) : t.forward.back = t := by
  have in_range : t.pointer < t.size := t.pointer_lt
  apply Tape.ext (by simp) _ (by simp)
  rw [pointer_back, pointer_forward, size_forward, Nat.mod_add_mod,
    show t.pointer + 1 + (t.size - 1) = t.pointer + t.size by omega,
    Nat.add_mod_right, Nat.mod_eq_of_lt in_range]

/-- A step forward undoes a step back. -/
@[simp] theorem forward_back (t : Tape) : t.back.forward = t := by
  have in_range : t.pointer < t.size := t.pointer_lt
  apply Tape.ext (by simp) _ (by simp)
  rw [pointer_forward, pointer_back, size_back, Nat.mod_add_mod,
    show t.pointer + (t.size - 1) + 1 = t.pointer + t.size by omega,
    Nat.add_mod_right, Nat.mod_eq_of_lt in_range]

/-- What was stored is read back as the mode stores it. -/
@[simp] theorem get_set (t : Tape) (value : Int64) :
    (t.set value).get = t.mode.normalize value := by
  simp [get, set]

/-- The page of `size` cells that holds the pointer, with the index of its first
cell. Pages start at multiples of their size and the last one may be shorter; a
page of no cells is taken as one of a single cell. -/
def window (t : Tape) (size : Nat) : Nat × Array Int64 :=
  let page := max size 1
  let base := t.pointer - t.pointer % page
  (base, t.cells.extract base (min (base + page) t.cells.size))

end Tape

end RingTape
