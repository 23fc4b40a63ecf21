/-
# The size of the tape shows only at its ends

A tape can be made longer by cells behind its last one. As long as a plain program never
steps over an end of the shorter tape, the longer one serves it just as well: moves,
reading and storing stay among the first cells, and the cells behind them are left exactly
as they were. Nothing is said of what follows a step over an end, because there the two
tapes part.

The engine notes the size of the tape where an execution begins. That note is the only
thing in which the machines differ beside the cells.
-/

import RingTape.Proofs.Execution.Parallel

namespace RingTape

namespace Tape

/-- The tape with more cells behind its last one. -/
def extend (extra : Array Int64) (t : Tape) : Tape where
  cells := t.cells ++ extra
  pointer := t.pointer
  mode := t.mode
  pointer_lt := by
    rw [Array.size_append]
    exact Nat.lt_add_right _ t.pointer_lt

variable {t : Tape}

@[simp] theorem cells_extend (extra : Array Int64) (t : Tape) :
    (t.extend extra).cells = t.cells ++ extra := rfl

@[simp] theorem pointer_extend (extra : Array Int64) (t : Tape) :
    (t.extend extra).pointer = t.pointer := rfl

@[simp] theorem mode_extend (extra : Array Int64) (t : Tape) :
    (t.extend extra).mode = t.mode := rfl

/-- The longer tape begins with the cells of the other, and its pointer is on the same of
them. -/
structure Begins (t longer : Tape) : Prop where
  cells : t.cells.toList <+: longer.cells.toList
  pointer : longer.pointer = t.pointer
  mode : longer.mode = t.mode

/-- Then it is that tape with more cells behind it. -/
theorem Begins.exists_extend {longer : Tape} (begins : t.Begins longer) :
    ∃ extra, longer = t.extend extra := by
  obtain ⟨rest, all⟩ := begins.cells
  refine ⟨rest.toArray, Tape.ext (Array.toList_inj.mp ?_) begins.pointer begins.mode⟩
  rw [cells_extend, Array.toList_append, all]

theorem get_extend (extra : Array Int64) (t : Tape) : (t.extend extra).get = t.get :=
  Array.getElem_append_left t.pointer_lt

theorem set_extend (extra : Array Int64) (t : Tape) (value : Int64) :
    (t.extend extra).set value = (t.set value).extend extra :=
  Tape.ext (Array.set_append_left t.pointer_lt) rfl rfl

/-- Before the last cell a step forward is the same on the longer tape. -/
theorem forward_extend (extra : Array Int64) (inside : t.pointer + 1 < t.size) :
    (t.extend extra).forward = t.forward.extend extra := by
  have inside' : (t.extend extra).pointer + 1 < (t.extend extra).size := by
    rw [size, cells_extend, Array.size_append]
    exact Nat.lt_add_right _ inside
  refine Tape.ext (by simp) ?_ (by simp)
  rw [pointer_forward, Nat.mod_eq_of_lt inside', pointer_extend, pointer_extend, pointer_forward,
    Nat.mod_eq_of_lt inside]

/-- Behind the first cell a step back is. -/
theorem back_extend (extra : Array Int64) (inside : 0 < t.pointer) :
    (t.extend extra).back = t.back.extend extra := by
  obtain ⟨cells, pointer, mode, pointer_lt⟩ := t
  cases pointer with
  | zero => cases inside
  | succ pointer => rfl

end Tape

namespace Execution

/-- The next instruction steps over an end of the tape. -/
def Configuration.Wraps (text : List Char) (c : Configuration) : Prop :=
  text[c.index]? = some Builtin.right.symbol ∧
      c.machine.tape.pointer + 1 = c.machine.tape.size ∨
    text[c.index]? = some Builtin.left.symbol ∧ c.machine.tape.pointer = 0

instance (text : List Char) (c : Configuration) : Decidable (c.Wraps text) :=
  inferInstanceAs (Decidable (_ ∨ _))

/-- A run that is still going on is about to step over an end of the tape. -/
def Progress.Wraps (text : List Char) : Progress → Prop
  | .running c => c.Wraps text
  | .halted _ _ => False

instance (text : List Char) : (progress : Progress) → Decidable (progress.Wraps text)
  | .running c => inferInstanceAs (Decidable (c.Wraps text))
  | .halted _ _ => inferInstanceAs (Decidable False)

end Execution

open Execution

/-- A primitive command that does not step over an end goes the same way on the longer
tape. -/
theorem Tape.onTape_extend {text : List Char} {c : Configuration} (p : Primitive)
    (reading : Reading) (extra : Array Int64) (read : text[c.index]? = some p.symbol)
    (stays : ¬ c.Wraps text) :
    p.onTape reading (c.machine.tape.extend extra) =
      (p.onTape reading c.machine.tape).extend extra := by
  have in_range : c.machine.tape.pointer < c.machine.tape.size := c.machine.tape.pointer_lt
  cases p with
  | stock s => cases s <;> simp only [Primitive.onTape, get_extend, set_extend]
  | builtin b =>
    cases b with
    | right =>
      have not_last : c.machine.tape.pointer + 1 ≠ c.machine.tape.size :=
        fun last => stays (.inl ⟨read, last⟩)
      exact forward_extend extra (by omega)
    | left =>
      have not_first : c.machine.tape.pointer ≠ 0 := fun first => stays (.inr ⟨read, first⟩)
      exact back_extend extra (by omega)
    | input => cases number : reading.number <;> simp only [Primitive.onTape, number, set_extend]
    | _ => simp only [Primitive.onTape, get_extend, set_extend]

namespace Machine

/-- The machine with more cells behind the last one of its tape. -/
def extend (extra : Array Int64) (m : Machine) : Machine :=
  { m with tape := m.tape.extend extra }

/-- A primitive command that does not step over an end does to the machine with the longer
tape what it does to the other. -/
theorem performAt_extend {text : List Char} {c : Configuration} (p : Primitive)
    (extra : Array Int64) (read : text[c.index]? = some p.symbol) (stays : ¬ c.Wraps text) :
    (c.machine.extend extra).performAt c.index p.routine =
      (c.machine.performAt c.index p.routine).extend extra := by
  rw [extend, performAt_of_cell p c.index (c.machine.tape.get_extend extra),
    Tape.onTape_extend p _ extra read stays, extend, performAt_primitive]

/-- Machines that did the same on a tape and on the longer one, from `base` on. -/
def Extends (extra : Array Int64) (base m m' : Machine) : Prop :=
  Relocated id base (m.extend extra) m'

/-- The cells behind the last one do not show in the cell at the pointer. -/
theorem masks_extends (extra : Array Int64) (base : Machine) : Masks (Extends extra base) where
  zero := fun m m' extends' => by
    rw [Relocated.get_eq extends', get, extend, Tape.get_extend, get]
  record := fun m m' event engine extends' =>
    (Relocated.record_left extends' engine).record_right engine

end Machine

namespace Interpreter

/-- The interpreter with more cells behind the last one of its tape. -/
def extend (extra : Array Int64) (i : Interpreter) : Interpreter :=
  { i with machine := i.machine.extend extra }

/-- None of the first `n` steps of an execution goes over an end of the tape. -/
def StaysInside (i : Interpreter) (code : String) (n : Nat) : Prop :=
  ∀ k < n, ¬ (advance (Program.ofString code) i.registry k (i.initial code)).Wraps code.toList

instance (i : Interpreter) (code : String) (n : Nat) : Decidable (i.StaysInside code n) :=
  inferInstanceAs (Decidable (∀ k < n, _))

variable {i : Interpreter} {code : String}

/-- The executions of a plain program on a tape and on the longer one are in step until a
step goes over an end of the tape. -/
theorem inStep_extend (understood : i.registry.Understands code.toList) (extra : Array Int64)
    {n : Nat} (stays : i.StaysInside code n) :
    i.InStepAfter (Machine.Extends extra (i.machine.extend extra)) (i.extend extra) code n := by
  have begins : Parallel (Machine.Extends extra (i.machine.extend extra)) (i.initial code)
      ((i.extend extra).initial code) :=
    ⟨rfl, rfl, rfl, ((Machine.Relocated.refl id _).record_left rfl).record_right rfl⟩
  have kept (c d : Configuration) (name : Char) (routine : Routine)
      (parallel : Parallel (Machine.Extends extra (i.machine.extend extra)) c d)
      (stays : ¬ c.Wraps code.toList)
      (read : (Program.ofString code).toList[c.index]? = some name)
      (resolved : i.registry.resolve name = some routine) :
      Machine.Extends extra (i.machine.extend extra) (c.machine.performAt c.index routine)
        (d.machine.performAt c.index routine) := by
    obtain ⟨p, rfl, rfl⟩ := understood.exists_primitive (List.mem_of_getElem? read) resolved
    rw [Machine.Extends, ← Machine.performAt_extend p extra read stays]
    exact Machine.Relocated.performAt parallel.machine c.index p.routine
  unfold InStepAfter
  refine begins.inStep (Machine.masks_extends extra _) kept n fun k lt passed run => ?_
  have inside := stays k lt
  rwa [run] at inside

/-- The size of the tape cannot be told before a step goes over an end of it. Until then the
executions of a plain program on a tape and on a longer one that begins with it are at the
same instruction after every number of steps. If the first ends without such a step, the
other ends within as many steps and has the same result: it has put out and reported the
same, the same input is left, and the tape is that of the first with the further cells
behind it as they were. -/
theorem execute_longer (understood : i.registry.Understands code.toList) {longer : Tape}
    (begins : i.machine.tape.Begins longer) :
    let j : Interpreter := { i with machine := { i.machine with tape := longer } }
    ∃ extra, longer = i.machine.tape.extend extra ∧
      (∀ n, i.StaysInside code n →
        i.InStepAfter (fun m m' => (m.extend extra).Agrees m') j code n) ∧
      ∀ fuel result after, i.execute fuel code = some (result, after) →
        i.StaysInside code fuel →
        ∃ after', j.execute fuel code = some (result, after') ∧
          after'.registry = after.registry ∧
          (after.machine.extend extra).Agrees after'.machine := by
  obtain ⟨extra, rfl⟩ := begins.exists_extend
  refine ⟨extra, rfl, fun n stays => ?_, fun fuel result after executed stays => ?_⟩
  · exact InStep.mono (inStep_extend understood extra stays) fun m m' extends' =>
      Machine.Relocated.agrees extends'
  · rcases execute_of_inStep (Machine.masks_extends extra _)
      (inStep_extend understood extra stays) with
      ⟨running, -⟩ | ⟨other, left, after', executed', extended, registry, registry', machines⟩
    · rw [running] at executed
      cases executed
    · rw [executed'] at executed
      cases executed
      exact ⟨after', extended, registry'.trans registry.symm, machines.agrees⟩

/-- A program that goes from one end of two cells to the other and back, beside the same on
four cells. -/
theorem execute_longer_to_the_ends :
    let i := (ofTape (.blank 2 .unbounded (by decide)) .collecting (.stream [])).addStock.2
    let longer : Tape := ⟨#[0, 0, 5, -6], 0, .unbounded, by decide⟩
    let j : Interpreter := { i with machine := { i.machine with tape := longer } }
    i.registry.Understands "+[>-<*_]]".toList ∧ i.machine.tape.Begins longer ∧
      i.StaysInside "+[>-<*_]]" 20 ∧
      ∃ after', j.execute 20 "+[>-<*_]]" = some (.error (.unmatchedClose 8), after') ∧
        after'.machine.tape.cells = #[0, -1, 5, -6] := by
  intro i longer j
  have understood : i.registry.Understands "+[>-<*_]]".toList :=
    Registry.understands_of_stock (fun s => by cases s <;> rfl) rfl
  have begins : i.machine.tape.Begins longer := ⟨by decide, rfl, rfl⟩
  have stays : i.StaysInside "+[>-<*_]]" 20 := by decide
  have ended : (i.execute 20 "+[>-<*_]]").map
      (fun ended => (ended.1, ended.2.machine.tape.cells)) =
        some (.error (.unmatchedClose 8), #[0, -1]) := by decide
  obtain ⟨⟨result, after⟩, executed, same⟩ := Option.map_eq_some_iff.mp ended
  obtain ⟨rfl, cells⟩ := Prod.mk.inj same
  obtain ⟨extra, extended, -, ends⟩ := execute_longer understood begins
  obtain ⟨after', executed', -, agrees⟩ := ends 20 _ after executed stays
  refine ⟨understood, begins, stays, after', executed', ?_⟩
  -- The further cells are the last two of the longer tape.
  have whole : [0, 0] ++ [5, -6] = [0, 0] ++ extra.toList :=
    (congrArg (fun t => t.cells.toList) extended).trans Array.toList_append
  obtain rfl : extra = #[5, -6] := Array.toList_inj.mp (List.append_cancel_left whole).symm
  rw [agrees.tape]
  exact congrArg (· ++ #[5, -6]) cells

end Interpreter

end RingTape
