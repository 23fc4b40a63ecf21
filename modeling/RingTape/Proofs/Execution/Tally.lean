/-
# The tape is the tally of the steps

No update is lost and none goes to a wrong cell. Where the pointer stands follows from how
often it was moved either way, and what a cell holds from how often one was added and one
taken away while the pointer stood there. How the loops ran does not matter, nor how often
the pointer came around the ring and a number past the end of its range on the way: the
counts are taken as integers and reduced once.
-/

import RingTape.Proofs.Command.Drift
import RingTape.Proofs.Execution.LoopEvents

namespace RingTape

namespace Execution

/-! ## Counts -/

/-- How often a command was performed. -/
def uses (b : Builtin) (trail : List Row) : Nat :=
  trail.countP fun row => row.instruction = b.symbol

/-- How often a command was performed while the pointer stood on a cell. -/
def usesAt (b : Builtin) (cell : Nat) (trail : List Row) : Nat :=
  trail.countP fun row => row.instruction = b.symbol ∧ row.pointer = cell

/-- How far the pointer was moved forward, less how far back. -/
def travel (trail : List Row) : Int := uses .right trail - uses .left trail

/-- What was added to a cell, less what was taken from it. -/
def change (cell : Nat) (trail : List Row) : Int :=
  usesAt .increment cell trail - usesAt .decrement cell trail

/-- The cells at the pointer where the output command was performed, in order. -/
def shown (trail : List Row) : List Int64 :=
  (trail.filter fun row => row.instruction = Builtin.output.symbol).map Row.cell

theorem travel_append (first second : List Row) :
    travel (first ++ second) = travel first + travel second := by
  simp only [travel, uses, List.countP_append]
  omega

theorem change_append (cell : Nat) (first second : List Row) :
    change cell (first ++ second) = change cell first + change cell second := by
  simp only [change, usesAt, List.countP_append]
  omega

theorem shown_append (first second : List Row) :
    shown (first ++ second) = shown first ++ shown second := by
  simp only [shown, List.filter_append, List.map_append]

/-- What a command by itself moves, -/
theorem travel_singleton {row : Row} {b : Builtin} (named : row.instruction = b.symbol) :
    travel [row] = b.motion := by
  cases b <;> simp [travel, uses, named, Builtin.symbol_inj, Builtin.motion]

/-- what it adds to a cell -/
theorem change_singleton {row : Row} {b : Builtin} (named : row.instruction = b.symbol)
    (cell : Nat) : change cell [row] = if cell = row.pointer then b.step else 0 := by
  rcases eq_or_ne row.pointer cell with rfl | elsewhere
  · cases b <;> simp [change, usesAt, named, Builtin.symbol_inj, Builtin.step]
  · simp [change, usesAt, elsewhere, elsewhere.symm]

/-- and what it shows. -/
theorem shown_singleton {row : Row} {b : Builtin} (named : row.instruction = b.symbol) :
    shown [row] = if b = .output then [row.cell] else [] := by
  cases b <;> simp [shown, named, Builtin.symbol_inj]

/-- Markers count for nothing. -/
theorem counts_of_marker (row : Row)
    (marker : row.instruction = loopOpen ∨ row.instruction = loopClose) :
    travel [row] = 0 ∧ (∀ cell, change cell [row] = 0) ∧ shown [row] = [] := by
  have other (b : Builtin) : row.instruction ≠ b.symbol := by
    rcases marker with named | named <;> rw [named]
    · exact b.symbol_ne_marker.1.symm
    · exact b.symbol_ne_marker.2.symm
  simp [travel, uses, change, usesAt, shown, other]

end Execution

open Execution

/-- The tape and the output of `after` are the tally of the rows, counted from `before`. -/
structure Machine.Tallies (before : Machine) (trail : List Row) (after : Machine) : Prop where
  drifts : before.tape.Drifts (travel trail) (fun cell => change cell trail) after.tape
  values_eq : after.sink.values = before.sink.values ++ shown trail

namespace Execution

variable {program : Program} {registry : Registry} {c : Configuration} {before : Machine}
  {trail : List Row}

/-- A command other than input keeps the tally. -/
theorem tallies_performed {b : Builtin} (reads : b ≠ .input)
    (tallies : before.Tallies trail c.machine) :
    before.Tallies (trail ++ [c.row b.symbol .command (c.performed b.routine)])
      (c.performed b.routine).machine := by
  generalize told : c.row b.symbol .command (c.performed b.routine) = row
  have named : row.instruction = b.symbol := told ▸ rfl
  have there : row.pointer = c.machine.tape.pointer := told ▸ rfl
  have held : row.cell = c.machine.tape.get := told ▸ rfl
  have performed := Machine.performAt_primitive (.builtin b) c.index c.machine
  constructor
  · have tape := congrArg Machine.tape performed
    have drifts := tallies.drifts.onTape reads c.machine.source.read.1
    simp only [travel_append, travel_singleton named, change_append, change_singleton named, there]
    exact tape ▸ drifts
  · have handed := congrArg (·.sink.values) performed
    refine handed.trans ((Sink.values_after _ _).trans ?_)
    rw [tallies.values_eq, shown_append, shown_singleton named, held, List.append_assoc]
    cases b <;> first | rfl | exact absurd rfl reads

/-- A marker keeps it too. -/
theorem tallies_of_marker {name : Char} {move : Move} {after : Configuration}
    (marker : name = loopOpen ∨ name = loopClose) (tape : after.machine.tape = c.machine.tape)
    (sink : after.machine.sink = c.machine.sink) (tallies : before.Tallies trail c.machine) :
    before.Tallies (trail ++ [c.row name move after]) after.machine := by
  obtain ⟨unmoved, unchanged, silent⟩ :=
    counts_of_marker (c.row name move after) marker
  constructor
  · simp only [tape, travel_append, unmoved, change_append, unchanged, Int.add_zero]
    exact tallies.drifts
  · rw [sink, shown_append, silent, List.append_nil]
    exact tallies.values_eq

/-- Every step keeps the tally in a program of markers and built-in commands that reads
nothing. -/
theorem tallies_of_performs {text : List Char} {row : Row} {after : Configuration}
    (written : ∀ name ∈ text, name ∈ instructions ∧ name ≠ Builtin.input.symbol)
    (tallies : before.Tallies trail c.machine)
    (performs : Performs text registry c (.next row after)) :
    before.Tallies (trail ++ [row]) after.machine := by
  cases performs with
  | command name routine read resolved =>
    obtain ⟨instruction, closed⟩ := written name (List.mem_of_getElem? read)
    rcases (mem_instructions_iff name).mp instruction with spelled | rfl | rfl
    · obtain ⟨b, spelled⟩ := Option.isSome_iff_exists.mp spelled
      obtain rfl := Builtin.eq_symbol_of_ofSymbol? spelled
      obtain rfl : b.routine = routine :=
        Option.some.inj ((registry.resolve_symbol b).symm.trans resolved)
      exact tallies_performed (fun input => closed (congrArg Builtin.symbol input)) tallies
    · exact absurd rfl (ne_marker_of_resolve resolved).1
    · exact absurd rfl (ne_marker_of_resolve resolved).2
  | enter close read found nonzero => exact tallies_of_marker (.inl rfl) rfl rfl tallies
  | skip close read found zero => exact tallies_of_marker (.inl rfl) rfl rfl tallies
  | back header outer read calls => exact tallies_of_marker (.inr rfl) rfl rfl tallies

/-- So every run keeps it. -/
theorem tallies_of_advance {n : Nat} {last : Configuration}
    (written : ∀ name ∈ program.toList, name ∈ instructions ∧ name ≠ Builtin.input.symbol)
    (tallies : before.Tallies [] c.machine)
    (run : advance program registry n c = .running last) :
    before.Tallies (rows program registry n c) last.machine := by
  induction n generalizing last with
  | zero =>
    cases run
    exact tallies
  | succ n ih =>
    -- Counted from the last step, no tape but the first has to be known to be sound.
    obtain ⟨next, row, reached, performs⟩ := exists_last_step run
    rw [rows_succ_of_next reached performs]
    exact tallies_of_performs written (ih reached) performs

end Execution

namespace Interpreter

variable {i : Interpreter} {code : String}

/-- In a program of markers and built-in commands that reads nothing, the tape is at all
times the tally of the steps so far. The pointer is as far from where it began as it was
moved forward more often than back, around the ring. A cell holds what it held at first and
one for each addition made there, less one for each subtraction, as the mode keeps that sum;
where none was made it holds the very same. The numbers put out are the cells shown, in
order. An execution that ends leaves the last of these tapes, and all that was put out. -/
theorem reaches_tallies (i : Interpreter) (code : String)
    (written : ∀ name ∈ code.toList, name ∈ instructions ∧ name ≠ Builtin.input.symbol)
    (bytes : i.machine.tape.mode = .byte →
      ∀ value ∈ i.machine.tape.cells, 0 ≤ value.toInt ∧ value.toInt ≤ 255) :
    (∀ n c, i.Reaches code n c →
      let trail := i.trail code n
      trail.length = n ∧
      (∀ k row, trail[k]? = some row → ∃ before, i.Reaches code k before ∧
        code.toList[before.index]? = some row.instruction ∧
        row.pointer = before.machine.tape.pointer ∧ row.cell = before.machine.get) ∧
      i.machine.Tallies trail c.machine ∧
      ∀ cell, usesAt .increment cell trail = 0 → usesAt .decrement cell trail = 0 →
        c.machine.tape.cells[cell]? = i.machine.tape.cells[cell]?) ∧
    ∀ result after, i.Executes code result after → ∃ n c, i.Reaches code n c ∧
      after.machine.tape = c.machine.tape ∧ after.machine.sink = c.machine.sink := by
  have sound : i.machine.tape.Sound i.machine.tape.size i.machine.tape.mode :=
    .of_cells rfl rfl bytes
  refine ⟨fun n c reached => ?_, fun result after executed => ?_⟩
  · have tallies : i.machine.Tallies (i.trail code n) c.machine := by
      exact tallies_of_advance written ⟨sound.drifts_zero, (List.append_nil _).symm⟩ reached
    refine ⟨length_rows_of_advance reached, fun k row listed => ?_, tallies,
      fun cell added taken => ?_⟩
    · obtain ⟨before, after, passed, -, performs⟩ := exists_of_getElem?_rows listed
      have told := tells_of_performs (nested_of_reaches passed) performs
      refine ⟨before, passed, ?_, told.pointer, told.cell⟩
      rw [← toList_ofString, Array.getElem?_toList]
      exact told.instruction
    · apply tallies.drifts.getElem?_eq sound
      rw [change, added, taken, sub_self]
  · obtain ⟨n, c, reached, -, rfl⟩ := executes_iff.mp executed
    exact ⟨n, c, reached, rfl, rfl⟩

/-- A loop that takes one from a blank byte to the right, and one that is put back there
from the left. -/
theorem reaches_tallies_around :
    let m : Machine := ⟨.blank 2 .byte (by decide), .collecting, .stream [], none, none, [], {}⟩
    let i : Interpreter := ⟨m, .empty⟩
    let trail := i.trail "+[>-.<-]<+" 11
    ∃ c, i.Reaches "+[>-.<-]<+" 11 c ∧ m.Tallies trail c.machine ∧
      travel trail = -1 ∧ c.machine.tape.pointer = 1 ∧
      usesAt .decrement 1 trail = 1 ∧ change 1 trail = 0 ∧ c.machine.sink.values = [255] := by
  intro m i trail
  have ended : (i.execute 12 "+[>-.<-]<+").map Prod.fst = some (.ok ()) := by decide
  obtain ⟨⟨_, after⟩, executed, rfl⟩ := Option.map_eq_some_iff.mp ended
  obtain ⟨c, reached, -⟩ := exists_end_of_execute executed
  have counted : (i.trail "+[>-.<-]<+" 12).length = 11 := by decide
  rw [counted] at reached
  have written : "+[>-.<-]<+".toList.all
      fun name => name ∈ instructions ∧ name ≠ Builtin.input.symbol := by decide
  obtain ⟨tallied, -⟩ := reaches_tallies i "+[>-.<-]<+"
    (fun name member => of_decide_eq_true (List.all_eq_true.mp written name member))
    (fun _ => (@Tape.sound_blank 2 .byte (by decide)).bytes rfl)
  obtain ⟨-, -, tallies, -⟩ := tallied 11 c reached
  have travelled : travel trail = -1 := by decide
  have showed : shown trail = [255] := by decide
  have pointer : (c.machine.tape.pointer : Int) = (0 + travel trail) % 2 := tallies.drifts.pointer_eq
  have values : c.machine.sink.values = [] ++ shown trail := tallies.values_eq
  rw [travelled] at pointer
  rw [showed] at values
  exact ⟨c, reached, tallies, travelled, by omega, by decide, by decide, values⟩

end Interpreter

end RingTape
