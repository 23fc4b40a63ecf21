/-
# Loops that count down

The body of a countdown moves the pointer back to where it began and takes one from the cell
there. Such a loop ends from every tape: the rounds that are left are the remainder of that
cell by the modulus of the cells, so that a negative number is counted down around the end of
the range. What a round adds to another cell is then added as often as the first cell says,
since the two differ by whole moduli. One that adds `k` to the next cell puts a product there.
-/

import RingTape.Proofs.Command.Drift
import RingTape.Proofs.Execution.Structured

namespace RingTape

namespace Builtin

/-- How far commands in a row move the pointer. -/
def motions (bs : List Builtin) : Int := (bs.map motion).sum

/-- What commands in a row add to a cell of a ring, if the first is performed at a place. -/
def gains (size cell : Nat) : Int → List Builtin → Int
  | _, [] => 0
  | place, b :: rest =>
    (if (cell : Int) = place % size then b.step else 0) +
      gains size cell (place + b.motion) rest

theorem motions_cons (b : Builtin) (rest : List Builtin) :
    motions (b :: rest) = b.motion + motions rest := by
  rw [motions, List.map_cons, List.sum_cons, motions]

theorem gains_append (size cell : Nat) (place : Int) (first second : List Builtin) :
    gains size cell place (first ++ second) =
      gains size cell place first + gains size cell (place + motions first) second := by
  induction first generalizing place with
  | nil => simp [gains, motions]
  | cons b rest ih =>
    rw [List.cons_append, gains, ih, gains, motions_cons, Int.add_assoc, Int.add_assoc]

theorem motions_replicate_increment (k : Nat) : motions (List.replicate k .increment) = 0 := by
  simp [motions, motion]

theorem gains_replicate_increment (size cell : Nat) (place : Int) (k : Nat) :
    gains size cell place (List.replicate k .increment) =
      if (cell : Int) = place % size then (k : Int) else 0 := by
  induction k with
  | zero => simp [gains]
  | succ k ih =>
    rw [List.replicate_succ, gains, show motion .increment = 0 from rfl, Int.add_zero, ih]
    split
    · simp only [step, Nat.cast_add_one]
      omega
    · rfl

/-- Whether a command works on the tape alone. -/
def IsSilent (b : Builtin) : Prop := b.inverse?.isSome

end Builtin

open Builtin

namespace Tape.Drifts

variable {before t : Tape} {change : Nat → Int}

/-- Without travel the pointer is where it was. -/
theorem pointer_of_zero (drifts : before.Drifts 0 change t) : t.pointer = before.pointer := by
  have inside : before.pointer < before.size := before.pointer_lt
  have same := drifts.pointer_eq
  rw [Int.add_zero, Int.emod_eq_of_lt (Int.natCast_nonneg _) (Int.ofNat_lt.mpr inside)] at same
  exact Int.ofNat_inj.mp same

theorem get_of_zero (drifts : before.Drifts 0 change t) :
    t.get = before.mode.hold (before.get.toInt + change before.pointer) := by
  have held := t.getElem?_pointer
  rw [drifts.pointer_of_zero] at held
  rw [← Int64.toInt_inj, CellMode.toInt_hold]
  exact drifts.toInt_of_getElem? before.getElem?_pointer held

end Tape.Drifts

namespace Block

/-- Commands in a row. -/
def ofBuiltins : List Builtin → Block
  | [] => empty
  | b :: rest => command b.symbol b.symbol_ne_marker (ofBuiltins rest)

theorem spell_ofBuiltins (bs : List Builtin) : (ofBuiltins bs).spell = bs.map symbol := by
  induction bs with
  | nil => rfl
  | cons b rest ih => rw [ofBuiltins, spell, ih, List.map_cons]

variable (registry : Registry) {bs : List Builtin} {before : Tape} {travel : Int}
  {change : Nat → Int}

/-- Silent commands in a row change nothing but the tape, which drifts by what they move and
add. -/
theorem exists_evaluate_ofBuiltins (silent : ∀ b ∈ bs, b.IsSilent) (fuel position : Nat)
    {m : Machine} (drifts : before.Drifts travel change m.tape) :
    ∃ tape known, (ofBuiltins bs).evaluate registry fuel position m =
        some (.ok (), { m with tape, position := known }) ∧
      before.Drifts (travel + motions bs)
        (fun cell => change cell + gains before.size cell (before.pointer + travel) bs) tape := by
  induction bs generalizing position m travel change with
  | nil =>
    refine ⟨m.tape, m.position, rfl, ?_⟩
    simpa [motions, gains] using drifts
  | cons b rest ih =>
    obtain ⟨b', inverse⟩ := Option.isSome_iff_exists.mp (silent b List.mem_cons_self)
    have reads : b ≠ .input := by
      rintro rfl
      cases inverse
    let onTape := (Primitive.builtin b).onTape m.source.read.1 m.tape
    obtain ⟨tape, known, done, drifted⟩ :=
      ih (fun b member => silent b (List.mem_cons_of_mem _ member)) (position + 1)
        (m := { m with tape := onTape, position := none }) (drifts.onTape reads m.source.read.1)
    refine ⟨tape, known, ?_, ?_⟩
    · rw [ofBuiltins, evaluate, registry.resolve_symbol]
      simp only [Machine.performAt_of_inverse inverse]
      exact done
    · have here (cell : Nat) : cell = m.tape.pointer ↔
          (cell : Int) = (before.pointer + travel) % before.size := by
        rw [← drifts.pointer_eq, Int.natCast_inj]
      simpa only [motions_cons, gains, here, Int.add_assoc] using drifted

/-- In a loop that takes one from its own cell in every round, that cell holds what is left. -/
theorem get_of_countdown (counts : gains before.size before.pointer before.pointer bs = -1)
    {done left : Nat} {t : Tape}
    (drifts : before.Drifts 0 (fun cell => done * gains before.size cell before.pointer bs) t)
    (remains : before.get.toInt - done ≡ left [ZMOD before.mode.modulus]) :
    t.get = before.mode.hold left := by
  rw [drifts.get_of_zero, counts, Int.mul_neg_one, ← Int.sub_eq_add_neg]
  exact (before.mode.hold_eq_hold_iff _ _).mpr remains

/-- A silent loop comes to an end if its body goes back to where it begins and takes one from
the cell there. The rounds that are done and those that are left make up what that cell held
at first, but for whole rounds around its range. -/
theorem exists_repeatWhile_countdown (silent : ∀ b ∈ bs, b.IsSilent) (closed : motions bs = 0)
    (counts : gains before.size before.pointer before.pointer bs = -1) (fuel position done : Nat)
    {left : Nat} (bounded : left < before.mode.modulus)
    (remains : before.get.toInt - done ≡ left [ZMOD before.mode.modulus]) {m : Machine}
    (drifts : before.Drifts 0 (fun cell => done * gains before.size cell before.pointer bs) m.tape) :
    ∃ tape known, repeatWhile ((ofBuiltins bs).evaluate registry fuel position) (left + 1) m =
        some (.ok (), { m with tape, position := known }) ∧
      before.Drifts 0 (fun cell => (done + left : Nat) * gains before.size cell before.pointer bs)
        tape := by
  induction left generalizing done m with
  | zero =>
    have zero : m.get = 0 := (get_of_countdown counts drifts remains).trans before.mode.hold_zero
    exact ⟨m.tape, m.position, repeatWhile_of_zero _ 0 zero, drifts⟩
  | succ left ih =>
    -- What is left is less than the modulus, so the cell is zero only if nothing is.
    have nonzero : m.get ≠ 0 := by
      intro zero
      have ends : before.mode.hold (left + 1 : Nat) = before.mode.hold 0 :=
        (get_of_countdown counts drifts remains).symm.trans (zero.trans before.mode.hold_zero.symm)
      have whole := Int.modEq_zero_iff_dvd.mp ((before.mode.hold_eq_hold_iff _ _).mp ends)
      have le := Nat.le_of_dvd (Nat.succ_pos left) (Int.natCast_dvd_natCast.mp whole)
      exact absurd bounded (Nat.not_lt.mpr le)
    obtain ⟨tape, known, round, drifted⟩ :=
      exists_evaluate_ofBuiltins registry silent fuel position drifts
    have again : before.Drifts 0
        (fun cell => (done + 1 : Nat) * gains before.size cell before.pointer bs) tape := by
      simpa [closed, Int.add_mul] using drifted
    have fewer : before.get.toInt - (done + 1 : Nat) ≡ left [ZMOD before.mode.modulus] := by
      have one_less := remains.sub_right 1
      push_cast at one_less ⊢
      rwa [Int.sub_sub, Int.add_sub_cancel] at one_less
    obtain ⟨last, unknown, rounds, finished⟩ :=
      ih (m := { m with tape, position := known }) (done + 1) (Nat.lt_of_succ_lt bounded) fewer again
    refine ⟨last, unknown, ?_, ?_⟩
    · rw [repeatWhile_of_nonzero _ _ nonzero, round]
      exact rounds
    · rw [Nat.add_right_comm, Nat.add_assoc] at finished
      exact finished

/-- A countdown adds to every cell what a round adds, as often as the cell where it begins
says. -/
theorem exists_evaluates_countdown {size : Nat} {mode : CellMode} {m : Machine}
    (silent : ∀ b ∈ bs, b.IsSilent) (closed : motions bs = 0)
    (counts : gains m.tape.size m.tape.pointer m.tape.pointer bs = -1)
    (sound : m.tape.Sound size mode) :
    ∃ tape known, (loop (ofBuiltins bs) empty).Evaluates registry m (.ok ())
        { m with tape, position := known } ∧
      m.tape.Drifts 0
        (fun cell => m.tape.get.toInt * gains m.tape.size cell m.tape.pointer bs) tape := by
  -- A negative number is first counted down to the least one, and from the greatest on.
  have positive : (0 : Int) < m.tape.mode.modulus := by cases m.tape.mode <;> decide
  obtain ⟨left, rest⟩ := Int.eq_ofNat_of_zero_le (Int.emod_nonneg m.tape.get.toInt positive.ne')
  have bounded : left < m.tape.mode.modulus := by
    have below := Int.emod_lt_of_pos m.tape.get.toInt positive
    rw [rest] at below
    exact Int.ofNat_lt.mp below
  have whole : m.tape.get.toInt ≡ left [ZMOD m.tape.mode.modulus] :=
    rest ▸ (Int.mod_modEq _ _).symm
  obtain ⟨tape, known, rounds, drifts⟩ :=
    exists_repeatWhile_countdown registry silent closed counts (left + 1) 1 0 bounded
      (by simpa using whole) (by simpa using sound.drifts_zero)
  refine ⟨tape, known, ⟨left + 1, ?_⟩, drifts.congr fun cell => ?_⟩
  · rw [evaluate, rounds]
    rfl
  · rw [Nat.zero_add]
    exact (whole.mul_right _).symm

end Block

namespace Interpreter

variable {i : Interpreter} {bs : List Builtin}

/-- A program that is nothing but a countdown ends well from every tape. -/
theorem exists_executes_countdown {code : String} {size : Nat} {mode : CellMode}
    (spelled : code.toList = loopOpen :: (bs.map symbol ++ [loopClose]))
    (silent : ∀ b ∈ bs, b.IsSilent) (closed : motions bs = 0)
    (counts : gains i.machine.tape.size i.machine.tape.pointer i.machine.tape.pointer bs = -1)
    (sound : i.machine.tape.Sound size mode) :
    ∃ after, i.Executes code (.ok ()) after ∧
      i.machine.tape.Drifts 0
        (fun cell => i.machine.tape.get.toInt *
          gains i.machine.tape.size cell i.machine.tape.pointer bs) after.machine.tape ∧
      after.machine.sink = i.machine.sink ∧ after.machine.source = i.machine.source ∧
      after.machine.hook = i.machine.hook ∧
      after.machine.journal.ofCommands = i.machine.journal.ofCommands := by
  obtain ⟨tape, known, evaluates, drifts⟩ :=
    Block.exists_evaluates_countdown i.registry silent closed counts sound
  have text : (Block.loop (Block.ofBuiltins bs) .empty).spell = code.toList := by
    rw [Block.spell, Block.spell_ofBuiltins, spelled, Block.spell]
  obtain ⟨after, executed, -, agrees⟩ := exists_executes_of_evaluates text evaluates
  refine ⟨after, executed, ?_, agrees.sink.symm, agrees.source.symm, agrees.hook.symm,
    agrees.ofCommands.symm⟩
  rw [← agrees.tape]
  exact drifts

/-- The loop that adds `k` to the next cell and takes one from its own. -/
def multiplier (k : Nat) : String := "[>" ++ String.ofList (List.replicate k '+') ++ "<-]"

/-- The commands in the body of that loop. -/
def multiplierBody (k : Nat) : List Builtin :=
  .right :: (List.replicate k .increment ++ [.left, .decrement])

theorem toList_multiplier (k : Nat) :
    (multiplier k).toList = loopOpen :: ((multiplierBody k).map symbol ++ [loopClose]) := by
  simp [multiplier, multiplierBody, symbol, loopOpen, loopClose]

theorem isSilent_of_mem_multiplierBody {k : Nat} {b : Builtin} (member : b ∈ multiplierBody k) :
    b.IsSilent := by
  simp only [multiplierBody, List.mem_cons, List.mem_append, List.mem_replicate,
    List.not_mem_nil, or_false] at member
  rcases member with rfl | ⟨-, rfl⟩ | rfl | rfl <;> rfl

theorem motions_multiplierBody (k : Nat) : motions (multiplierBody k) = 0 := by
  simp [multiplierBody, motions, motion]

theorem gains_multiplierBody (size cell : Nat) (place : Int) (k : Nat) :
    gains size cell place (multiplierBody k) =
      (if (cell : Int) = (place + 1) % size then (k : Int) else 0) +
        if (cell : Int) = place % size then -1 else 0 := by
  rw [multiplierBody, gains, gains_append, gains_replicate_increment, motions_replicate_increment]
  simp only [gains, motion, step, ite_self, Int.zero_add, Int.add_zero, Int.add_neg_cancel_right]
  rfl

/-- The loop that adds `k` to the next cell and takes one from its own ends from every tape of
two cells or more, whatever the two cells hold. The next cell then holds the wrapped product in
addition to what it held, its own cell holds zero, and nothing else has changed. -/
theorem executes_multiplier (i : Interpreter) (k : Nat) (wide : 2 ≤ i.machine.tape.size)
    (bytes : i.machine.tape.mode = .byte →
      ∀ value ∈ i.machine.tape.cells, 0 ≤ value.toInt ∧ value.toInt ≤ 255) :
    let t := i.machine.tape
    let next := (t.pointer + 1) % t.size
    ∃ after y product, i.Executes (multiplier k) (.ok ()) after ∧
      t.cells[next]? = some y ∧ product.toInt = t.mode.residue (y.toInt + k * t.get.toInt) ∧
      after.machine.tape.size = t.size ∧ after.machine.tape.mode = t.mode ∧
      after.machine.tape.pointer = t.pointer ∧
      after.machine.tape.cells[t.pointer]? = some 0 ∧
      after.machine.tape.cells[next]? = some product ∧
      (∀ cell, cell ≠ t.pointer → cell ≠ next →
        after.machine.tape.cells[cell]? = t.cells[cell]?) ∧
      after.machine.sink = i.machine.sink ∧ after.machine.source = i.machine.source ∧
      after.machine.hook = i.machine.hook ∧
      after.machine.journal.ofCommands = i.machine.journal.ofCommands := by
  intro t next
  have sound : t.Sound t.size t.mode := .of_cells rfl rfl bytes
  have inside : t.pointer < t.size := t.pointer_lt
  have apart : next ≠ t.pointer := by
    rcases Nat.lt_or_ge (t.pointer + 1) t.size with before | last
    · exact (Nat.mod_eq_of_lt before).trans_ne (Nat.succ_ne_self _)
    · have around : t.pointer + 1 = t.size := by omega
      have first : next = 0 := (congrArg (· % t.size) around).trans (Nat.mod_self _)
      have cells : 2 ≤ t.size := wide
      omega
  have adds (cell : Nat) : gains t.size cell t.pointer (multiplierBody k) =
      (if cell = next then (k : Int) else 0) + if cell = t.pointer then -1 else 0 := by
    have here : (t.pointer : Int) % t.size = t.pointer :=
      Int.emod_eq_of_lt (Int.natCast_nonneg _) (Int.ofNat_lt.mpr inside)
    have there : ((t.pointer + 1 : Int) % t.size) = next := (Int.natCast_mod _ _).symm
    simp only [gains_multiplierBody, here, there, Int.natCast_inj]
  have counts : gains t.size t.pointer t.pointer (multiplierBody k) = -1 := by
    rw [adds, if_neg apart.symm, if_pos rfl, Int.zero_add]
  obtain ⟨after, executed, drifts, same⟩ := exists_executes_countdown (toList_multiplier k)
    (fun _ => isSilent_of_mem_multiplierBody) (motions_multiplierBody k) counts sound
  have bound : next < t.cells.size := Nat.mod_lt _ t.size_pos
  obtain ⟨y, held⟩ : ∃ y, t.cells[next]? = some y := ⟨_, Array.getElem?_eq_getElem bound⟩
  have cells := drifts.cells_eq next
  rw [held, Option.map_some] at cells
  obtain ⟨product, stored, shows⟩ := Option.map_eq_some_iff.mp cells
  refine ⟨after, y, product, executed, held, ?_, drifts.size_eq, drifts.mode_eq,
    drifts.pointer_of_zero, ?_, stored, fun cell own other => ?_, same⟩
  · rw [shows, adds, if_pos rfl, if_neg apart, Int.add_zero, Int.mul_comm]
  · have stops := after.machine.tape.getElem?_pointer
    rw [drifts.pointer_of_zero, drifts.get_of_zero, counts, Int.mul_neg_one, Int.add_neg_eq_sub,
      Int.sub_self, CellMode.hold_zero] at stops
    exact stops
  · apply drifts.getElem?_eq sound
    rw [adds, if_neg other, if_neg own, Int.add_zero, Int.mul_zero]

/-- A negative number is counted down around the end of the range of 64 bits, and the pointer
moves around the end of the tape. -/
theorem executes_multiplier_negative :
    let t : Tape := ⟨#[5, -3], 1, .unbounded, by decide⟩
    let i := ofTape t .collecting (.stream [])
    ∃ after, i.Executes (multiplier 7) (.ok ()) after ∧
      after.machine.tape.cells[1]? = some 0 ∧ after.machine.tape.cells[0]? = some (-16 : Int64) := by
  intro t i
  obtain ⟨after, y, product, executed, held, shows, -, -, -, own, stored, -⟩ :=
    executes_multiplier i 7 (by decide) (fun byte => nomatch byte)
  have around : (i.machine.tape.pointer + 1) % i.machine.tape.size = 0 := by decide
  rw [around] at held stored
  have begun : i.machine.tape.cells[0]? = some (5 : Int64) := rfl
  obtain rfl : 5 = y := Option.some.inj (begun.symm.trans held)
  have wrapped : product = -16 := Int64.toInt_inj.mp (shows.trans (by decide))
  exact ⟨after, executed, own, wrapped ▸ stored⟩

end Interpreter

end RingTape
