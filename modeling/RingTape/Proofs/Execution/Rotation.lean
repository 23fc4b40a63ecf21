/-
# No program knows where on the ring it is

A tape can be turned: every cell and the pointer move on by the same number of places
around the ring. Moves, reading and storing go on the turned tape as they went before,
wherever the ends of the tape have come to lie. So a plain program does the same on it and
leaves behind what it would have left, turned by as much. A shift may be of any size and
in either direction, and the ring may have a single cell.
-/

import RingTape.Proofs.Execution.Parallel
import RingTape.Proofs.Tape.Ring

namespace RingTape

namespace Tape

/-- The tape with every cell and the pointer `shift` places further around the ring. -/
def rotate (shift : Int) (t : Tape) : Tape where
  cells := Array.ofFn fun index : Fin t.size =>
    have inside := t.place_lt (index - shift)
    t.cells[t.place (index - shift)]
  pointer := t.place (t.pointer + shift)
  mode := t.mode
  pointer_lt := by
    rw [Array.size_ofFn]
    exact t.place_lt _

variable {shift : Int} {t : Tape}

@[simp] theorem size_rotate (shift : Int) (t : Tape) : (t.rotate shift).size = t.size :=
  Array.size_ofFn

@[simp] theorem place_rotate (shift : Int) (t : Tape) (count : Int) :
    (t.rotate shift).place count = t.place count := by
  rw [place, place, size_rotate]

/-- Going back from a place is undone by going on from where that leads. -/
theorem place_sub_eq_iff {index other : Nat} (inside : index < t.size) (inside' : other < t.size) :
    t.place (index - shift) = other ↔ index = t.place (other + shift) := by
  constructor
  · rintro rfl
    rw [place_place_add, sub_add_cancel, place_of_lt inside]
  · rintro rfl
    rw [sub_eq_add_neg, place_place_add, add_neg_cancel_right, place_of_lt inside']

/-- A place of the turned tape holds what was `shift` places before it. -/
theorem getElem?_cells_rotate (shift : Int) (t : Tape) (index : Nat) (inside : index < t.size) :
    (t.rotate shift).cells[index]? = t.cells[t.place (index - shift)]? := by
  rw [rotate, Array.getElem?_ofFn, dif_pos inside, Array.getElem?_eq_getElem]

/-- So each cell is found `shift` places further on. -/
theorem getElem?_cells_rotate_place (shift : Int) (t : Tape) (index : Nat)
    (inside : index < t.size) :
    (t.rotate shift).cells[t.place (index + shift)]? = t.cells[index]? := by
  rw [getElem?_cells_rotate _ _ _ (t.place_lt _), sub_eq_add_neg, place_place_add,
    add_neg_cancel_right, place_of_lt inside]

/-- The pointer moves on the turned tape as it did before. -/
theorem move_rotate (count shift : Int) (t : Tape) :
    (t.rotate shift).move count = (t.move count).rotate shift := by
  refine Tape.ext rfl ?_ rfl
  change (t.rotate shift).place (t.place (t.pointer + shift) + count) =
    t.place (t.place (t.pointer + count) + shift)
  rw [place_rotate, place_place_add, place_place_add, add_right_comm]

/-- The pointer has taken its cell with it. -/
theorem get_rotate (shift : Int) (t : Tape) : (t.rotate shift).get = t.get := by
  have same := getElem?_cells_rotate_place shift t t.pointer t.pointer_lt
  rw [getElem?_pointer] at same
  exact Option.some.inj (same.symm.trans (t.rotate shift).getElem?_pointer).symm

/-- A number is stored into the same cell, wherever that is now. -/
theorem set_rotate (shift : Int) (t : Tape) (value : Int64) :
    (t.rotate shift).set value = (t.set value).rotate shift := by
  refine Tape.ext (Array.ext_getElem? fun index => ?_) ?_ rfl
  · rcases Nat.lt_or_ge index t.size with inside | outside
    · have stored_here : index = (t.rotate shift).pointer ↔ t.place (index - shift) = t.pointer :=
        (place_sub_eq_iff inside t.pointer_lt).symm
      rw [getElem?_cells_set, getElem?_cells_rotate shift t index inside,
        getElem?_cells_rotate shift (t.set value) index (by simpa using inside), place_set,
        getElem?_cells_set]
      simp only [stored_here]
      rfl
    · have short (t' : Tape) (same : t'.size = t.size) : t'.cells[index]? = none :=
        Array.getElem?_eq_none (same.trans_le outside)
      rw [short _ (by simp), short _ (by simp)]
  · exact (place_set t value _).symm

/-- A primitive command does on the turned tape what it did before. -/
theorem onTape_rotate (p : Primitive) (reading : Reading) (shift : Int) (t : Tape) :
    p.onTape reading (t.rotate shift) = (p.onTape reading t).rotate shift := by
  cases p with
  | stock s => cases s <;> simp only [Primitive.onTape, get_rotate, set_rotate]
  | builtin b =>
    cases b with
    | right => simp only [Primitive.onTape, forward_eq_move, move_rotate]
    | left => simp only [Primitive.onTape, back_eq_move, move_rotate]
    | input => cases read : reading.number <;> simp only [Primitive.onTape, read, set_rotate]
    | _ => simp only [Primitive.onTape, get_rotate, set_rotate]

end Tape

namespace Machine

/-- The machine with its tape turned. -/
def rotate (shift : Int) (m : Machine) : Machine := { m with tape := m.tape.rotate shift }

/-- A primitive command does to the turned machine what it did before. -/
theorem performAt_rotate (p : Primitive) (position : Nat) (shift : Int) (m : Machine) :
    (m.rotate shift).performAt position p.routine =
      (m.performAt position p.routine).rotate shift := by
  rw [rotate, performAt_of_cell p position (m.tape.get_rotate shift), Tape.onTape_rotate, rotate,
    performAt_primitive]

/-- Whether the cell is zero does not tell by how much the tape was turned. -/
theorem masks_rotate (shift : Int) : Masks fun m m' => m' = m.rotate shift where
  zero := by
    rintro m _ rfl
    rw [get, rotate, Tape.get_rotate]
    rfl
  record := by
    rintro m _ event - rfl
    rfl

end Machine

namespace Interpreter

open Execution

/-- The interpreter with the tape of its machine turned. -/
def rotate (shift : Int) (i : Interpreter) : Interpreter :=
  { i with machine := i.machine.rotate shift }

variable {i : Interpreter} {code : String}

/-- The executions of a plain program on a tape and on the turned tape are in step. -/
theorem inStep_rotate (understood : i.registry.Understands code.toList) (shift : Int) (n : Nat) :
    i.InStepAfter (fun m m' => m' = m.rotate shift) (i.rotate shift) code n := by
  have started : start (i.machine.rotate shift) (.ofString code) =
      (start i.machine (.ofString code)).rotate shift := by
    rw [start, Machine.rotate, Tape.size_rotate]
    rfl
  have registry : (i.rotate shift).registry = i.registry := rfl
  apply inStep_of_primitives (Machine.masks_rotate shift) understood registry started
  intro p position m m' turned
  rw [turned, Machine.performAt_rotate]

/-- On a turned tape a plain program ends exactly if it does on the tape itself, within the
same number of steps, with the same result. It leaves behind the same machine with its tape
turned: what was put out, reported and noted is the same, and so is the input that is left. -/
theorem execute_rotate (understood : i.registry.Understands code.toList) (shift : Int) :
    ((i.rotate shift).Terminates code ↔ i.Terminates code) ∧
    ∀ fuel, (i.rotate shift).execute fuel code =
      (i.execute fuel code).map fun ended => (ended.1, ended.2.rotate shift) := by
  have masks := Machine.masks_rotate shift
  refine ⟨(terminates_iff_of_inStep masks (inStep_rotate understood shift)).symm, fun fuel => ?_⟩
  rcases execute_of_inStep masks (inStep_rotate understood shift fuel) with
    ⟨running, running'⟩ | ⟨result, after, after', ended, ended', registry, registry', turned⟩
  · rw [running, running']
    rfl
  · have whole : after' = after.rotate shift := by
      rw [rotate, ← turned, registry]
      exact congrArg (mk after'.machine) registry'
    rw [ended, ended', whole]
    rfl

/-- A loop that goes over the end of a ring of three cells and reads a line on its way, on
the ring turned by four places back. -/
theorem execute_rotate_over_end :
    let i := (ofTape (.blank 3 .byte (by decide)) .collecting (.stream [0x37, 0x0A])).addStock.2
    i.registry.Understands "<++[>,*.<-]".toList ∧
      ((i.rotate (-4)).execute 40 "<++[>,*.<-]").map
          (fun ended => (ended.2.machine.tape.pointer, ended.2.machine.sink.values)) =
        some (1, [14, 28]) := by
  intro i
  have understood : i.registry.Understands "<++[>,*.<-]".toList :=
    Registry.understands_of_stock (fun s => by cases s <;> rfl) rfl
  refine ⟨understood, ?_⟩
  rw [(execute_rotate understood (-4)).2 40]
  decide

end Interpreter

end RingTape
