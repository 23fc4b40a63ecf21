/-
# What the journal tells of loops

A run notes every loop that it enters and every loop that it skips, and nothing when it
leaves a loop. The notes balance all the same. To a loop a step can be five things only: it
enters at the header, it skips from there behind the end, it goes back from the end to the
header, or it stays on the side of the loop on which it is. So a run that is in the loop has
entered it once more often than it has come to its end, and a run that is not has done both
equally often.

Everything else follows from the places that the run passes, as of any sequence that comes
into an interval and leaves it in one way only: a run that ends outside of a loop has left
it, once for each time that it came in.
-/

import Mathlib.Data.Nat.Find
import Mathlib.Logic.ExistsUnique
import RingTape.Proofs.Execution.TraceTable
import RingTape.Proofs.Program.Matching

namespace RingTape

/-! ## Notes -/

namespace Event

/-- Whether an event tells that the loop at `header` was entered. -/
def enters (header : Nat) : Event → Bool
  | .loopEntered opened _ => opened == header
  | _ => false

/-- Whether an event tells that the loop at `header` was skipped. -/
def skips (header : Nat) : Event → Bool
  | .loopSkipped opened _ => opened == header
  | _ => false

end Event

namespace Journal

/-- What was noted, but not by commands. -/
def ofEngine (j : Journal) : List Event := j.events.filter fun e => !e.isOfCommand

theorem ofEngine_record (j : Journal) {e : Event} (engine : e.isOfCommand = false) :
    (j.record e).ofEngine = j.ofEngine ++ [e].filter j.filter.passes := by
  rw [ofEngine, events_record, List.filter_append, List.filter_filter]
  simp [ofEngine, List.filter_cons, engine]

theorem ofEngine_record_of_command (j : Journal) {e : Event} (command : e.isOfCommand = true) :
    (j.record e).ofEngine = j.ofEngine := by
  rw [ofEngine, events_record, List.filter_append, List.filter_filter]
  simp [ofEngine, command]

end Journal

namespace Machine

/-- A routine notes nothing that the engine notes, and leaves the filter as it is. -/
theorem journal_perform (routine : Routine) (m : Machine) :
    (m.perform routine).journal.filter = m.journal.filter ∧
      (m.perform routine).journal.ofEngine = m.journal.ofEngine := by
  induction routine generalizing m with
  | done => exact ⟨rfl, rfl⟩
  | forward next ih => exact ih m.forward
  | back next ih => exact ih m.back
  | get next ih => exact ih m.get m
  | inspect next ih => exact ih m.tape m
  | set value next ih => exact ih (m.set value)
  | reset next ih => exact ih m.reset
  | emit value next ih =>
    have emitted : (m.emit value).journal.ofEngine = m.journal.ofEngine := by
      unfold emit
      split
      · rfl
      · exact Journal.ofEngine_record_of_command _ rfl
    obtain ⟨filter, engine⟩ := ih (m.emit value)
    exact ⟨filter.trans (m.observed_emit value).filter, engine.trans emitted⟩
  | readLine next ih => exact ih m.source.read.1 m.readLine.2
  | report problem next ih =>
    obtain ⟨filter, engine⟩ := ih (m.report problem)
    exact ⟨filter.trans (m.observed_report problem).filter,
      engine.trans (Journal.ofEngine_record_of_command _ rfl)⟩
  | retrieve slot next ih => exact ih (m.retrieve slot) m
  | keep slot value next ih => exact ih (m.keep slot value)

end Machine

namespace Execution

open Nesting

variable {text : List Char} {program : Program} {registry : Registry} {c : Configuration}
  {header close n : Nat} {row : Row}

namespace Row

/-- What the engine notes of a step. -/
def noted (row : Row) : Option Event :=
  match row.move with
  | .enter close => some (.loopEntered row.index close)
  | .skip close => some (.loopSkipped row.index close)
  | .command | .back _ => none

/-- A step notes the loop at whose header it stands. -/
theorem index_of_enters (told : row.noted.any (Event.enters header)) : row.index = header := by
  unfold noted at told
  split at told <;> simp_all [Event.enters]

theorem index_of_skips (told : row.noted.any (Event.skips header)) : row.index = header := by
  unfold noted at told
  split at told <;> simp_all [Event.skips]

/-- A row stands at a character of the program, and notes an event exactly if that is an
opening marker: which one depends on the cell, and it names the marker that closes the loop. -/
structure NotesLoop (program : Program) (row : Row) : Prop where
  read : program[row.index]? = some row.instruction
  opening : row.instruction = loopOpen → ∃ close, program.findClose row.index = .ok close ∧
    row.noted = some (if row.cell ≠ 0 then .loopEntered row.index close
      else .loopSkipped row.index close)
  other : row.instruction ≠ loopOpen → row.noted = none

end Row

theorem notesLoop_of_performs {after : Configuration}
    (performs : Performs program.toList registry c (.next row after)) : row.NotesLoop program := by
  cases performs with
  | command name routine read resolved =>
    exact ⟨by rwa [← Array.getElem?_toList],
      fun marker => absurd marker (ne_marker_of_resolve resolved).1, fun _ => rfl⟩
  | enter close read found nonzero =>
    exact ⟨by rwa [← Array.getElem?_toList],
      fun _ => ⟨close, findClose_eq_ok_iff.mpr found, (congrArg some (if_pos nonzero)).symm⟩,
      fun other => absurd rfl other⟩
  | skip close read found zero =>
    exact ⟨by rwa [← Array.getElem?_toList],
      fun _ => ⟨close, findClose_eq_ok_iff.mpr found,
        (congrArg some (if_neg (not_not_intro zero))).symm⟩,
      fun other => absurd rfl other⟩
  | back top outer read calls =>
    exact ⟨by rwa [← Array.getElem?_toList], fun marker => absurd marker.symm loopOpen_ne_loopClose,
      fun _ => rfl⟩

/-- The engine adds to the journal what it notes of a step, if that passes. -/
theorem Performs.journal_eq {after : Configuration}
    (performs : Performs text registry c (.next row after)) :
    after.machine.journal.filter = c.machine.journal.filter ∧
      after.machine.journal.ofEngine = c.machine.journal.ofEngine ++
        row.noted.toList.filter c.machine.journal.filter.passes := by
  cases performs with
  | command name routine =>
    obtain ⟨filter, engine⟩ :=
      Machine.journal_perform routine { c.machine with position := some c.index }
    exact ⟨filter, engine.trans (List.append_nil _).symm⟩
  | enter close => exact ⟨Journal.filter_record _ _, Journal.ofEngine_record _ rfl⟩
  | skip close => exact ⟨Journal.filter_record _ _, Journal.ofEngine_record _ rfl⟩
  | back top outer => exact ⟨rfl, (List.append_nil _).symm⟩

/-- What the engine adds in a run are the notes of its rows, in order. -/
theorem journal_of_advance {last : Configuration}
    (run : advance program registry n c = .running last) :
    last.machine.journal.filter = c.machine.journal.filter ∧
      last.machine.journal.ofEngine = c.machine.journal.ofEngine ++
        ((rows program registry n c).filterMap Row.noted).filter c.machine.journal.filter.passes := by
  induction n generalizing c with
  | zero =>
    cases run
    exact ⟨rfl, (List.append_nil _).symm⟩
  | succ n ih =>
    obtain ⟨row, after, performs, rest⟩ := exists_first_step run
    obtain ⟨filter, noted⟩ := performs.journal_eq
    obtain ⟨filters, later⟩ := ih rest
    refine ⟨filters.trans filter, ?_⟩
    rw [later, noted, filter, rows, performs.step_eq, List.filterMap_cons, List.append_assoc,
      ← List.filter_append]
    cases row.noted <;> rfl

/-! ## Steps and a loop -/

/-- What a step can be to the loop from `header` to `close`, from the place of its row to the
place where it leads. -/
inductive Passes (header close : Nat) (row : Row) (next : Nat) : Prop
  | enter (at_header : row.index = header) (noted : row.noted = some (.loopEntered header close))
      (leads : next = header + 1)
  | skip (at_header : row.index = header) (noted : row.noted = some (.loopSkipped header close))
      (leads : next = close + 1)
  | back (at_close : row.index = close) (marker : row.instruction = loopClose)
      (leads : next = header)
  | within (behind : header < row.index) (before : row.index < close)
      (leads : header < next ∧ next ≤ close)
  | apart (outside : row.index < header ∨ close < row.index)
      (leads : next ≤ header ∨ close < next)

/-- Loops do not cross, so a step leads into a loop or out of it at its markers only. -/
theorem Performs.passes {after : Configuration} (loop : Partners text header close)
    (nested : Nested text c) (performs : Performs text registry c (.next row after)) :
    Passes header close row after.index := by
  have found : partner text header = some close := (partner_eq_some_iff loop.1).mpr loop
  obtain ⟨opened, closed, before, -⟩ := loop
  have places : c.index = header ∨ c.index = close ∨ header < c.index ∧ c.index < close ∨
      (c.index < header ∨ close < c.index) := by omega
  -- The two markers of the loop are different characters.
  have ne_close (read : text[c.index]? = some loopOpen) : c.index ≠ close := by
    intro at_close
    rw [at_close, closed] at read
    exact loopOpen_ne_loopClose (Option.some.inj read).symm
  cases performs with
  | command name routine read resolved =>
    obtain ⟨ne_open, ne_close⟩ := ne_marker_of_resolve resolved
    rcases places with at_header | at_close | ⟨behind, inside⟩ | outside
    · rw [at_header, opened] at read
      exact absurd (Option.some.inj read).symm ne_open
    · rw [at_close, closed] at read
      exact absurd (Option.some.inj read).symm ne_close
    · exact .within behind inside ⟨Nat.lt_succ_of_lt behind, inside⟩
    · exact .apart outside (by simp only [Configuration.performed]; omega)
  | enter last read partners nonzero =>
    rcases places with rfl | at_close | ⟨behind, inside⟩ | outside
    · rw [found] at partners
      cases partners
      exact .enter rfl rfl rfl
    · exact absurd at_close (ne_close read)
    · exact .within behind inside ⟨Nat.lt_succ_of_lt behind, inside⟩
    · exact .apart outside (by simp only [Configuration.entered]; omega)
  | skip last read partners zero =>
    -- What is jumped over is a loop too, and so lies in this one or leaves it out.
    obtain ⟨-, -, forward, -⟩ := (partner_eq_some_iff read).mp partners
    rcases places with rfl | at_close | ⟨behind, inside⟩ | outside
    · rw [found] at partners
      cases partners
      exact .skip rfl rfl rfl
    · exact absurd at_close (ne_close read)
    · have inner := partner_lt_or_lt read behind found partners
      exact .within behind inside (by simp only [Configuration.skipped]; omega)
    · have around : c.index < header → last < header ∨ close < last := fun earlier =>
        partner_lt_or_lt opened earlier partners found
      exact .apart outside (by simp only [Configuration.skipped]; omega)
  | back top outer read calls =>
    -- The header on the stack is that of the loop which ends here.
    obtain ⟨top_open, partners⟩ := nested.partner_header calls read
    obtain ⟨-, -, back, -⟩ := (partner_eq_some_iff top_open).mp partners
    have inner : header < top → close < top ∨ c.index < close := fun later =>
      partner_lt_or_lt top_open later found partners
    have around : top < header → c.index < header ∨ close < c.index := fun earlier =>
      partner_lt_or_lt opened earlier partners found
    rcases places with at_header | rfl | ⟨behind, inside⟩ | outside
    · rw [at_header, opened] at read
      exact absurd (Option.some.inj read) loopOpen_ne_loopClose
    · exact .back rfl rfl (partner_injective top_open opened partners found)
    · have ne : top ≠ header := by
        rintro rfl
        rw [found] at partners
        exact absurd (Option.some.inj partners) inside.ne'
      exact .within behind inside (by simp only [Configuration.returned]; omega)
    · exact .apart outside (by simp only [Configuration.returned]; omega)

/-! ## Places and a loop -/

/-- How often the loop at `header` was entered, as the notes of some rows tell. -/
def entries (header : Nat) (trail : List Row) : Nat :=
  (trail.filterMap Row.noted).countP (Event.enters header)

/-- How often the closing marker at `close` was performed. -/
def closings (close : Nat) (trail : List Row) : Nat :=
  trail.countP fun row => row.index = close ∧ row.instruction = loopClose

/-- The row with this number notes that the loop at `header` was entered. -/
def EntersAt (trail : List Row) (header k : Nat) : Prop :=
  ∃ row, trail[k]? = some row ∧ row.noted.any (Event.enters header)

/-- The row with this number notes that the loop at `header` was skipped. -/
def SkipsAt (trail : List Row) (header k : Nat) : Prop :=
  ∃ row, trail[k]? = some row ∧ row.noted.any (Event.skips header)

/-- The row with this number is that of the closing marker at `close`. -/
def ClosesAt (trail : List Row) (close k : Nat) : Prop :=
  ∃ row, trail[k]? = some row ∧ row.index = close ∧ row.instruction = loopClose

/-- The row with this number stands at `header`, and the run came there from outside of the
loop that ends at `close`, or began there. -/
def ArrivesAt (trail : List Row) (header close k : Nat) : Prop :=
  (∃ row, trail[k]? = some row ∧ row.index = header) ∧
    ∀ j row, j + 1 = k → trail[j]? = some row → row.index < header ∨ close < row.index

/-- A place in a loop, behind its header. -/
def Inside (header close index : Nat) : Prop := header < index ∧ index ≤ close

instance (header close : Nat) : DecidablePred (Inside header close) :=
  fun _ => inferInstanceAs (Decidable (_ ∧ _))

/-- A place in a loop, its header included. -/
def Within (header close index : Nat) : Prop := header ≤ index ∧ index ≤ close

/-- Rows that lead from place to place, from the first one on, and pass a loop. -/
structure Visits (header close : Nat) (trail : List Row) (place : Nat → Nat) : Prop where
  forward : header < close
  first : place 0 = 0
  passes : ∀ k row, trail[k]? = some row → row.index = place k ∧
    Passes header close row (place (k + 1))

theorem lt_length_of_row {trail : List Row} {k : Nat} {about : Row → Prop}
    (told : ∃ row, trail[k]? = some row ∧ about row) : k < trail.length := by
  obtain ⟨row, listed, -⟩ := told
  exact (List.getElem?_eq_some_iff.mp listed).1

theorem entries_append (first second : List Row) :
    entries header (first ++ second) = entries header first + entries header second := by
  rw [entries, List.filterMap_append, List.countP_append, entries, entries]

theorem closings_append (first second : List Row) :
    closings close (first ++ second) = closings close first + closings close second :=
  List.countP_append

@[simp] theorem entries_singleton (row : Row) :
    entries header [row] = if row.noted.any (Event.enters header) then 1 else 0 := by
  cases noted : row.noted <;> simp [entries, noted, List.countP_cons]

@[simp] theorem closings_singleton (row : Row) :
    closings close [row] = if row.index = close ∧ row.instruction = loopClose then 1 else 0 := by
  simp [closings, List.countP_cons]

namespace Passes

variable {next : Nat}

/-- The loop is entered where the run comes to places behind the header. -/
theorem enters_iff (passes : Passes header close row next) (forward : header < close) :
    row.noted.any (Event.enters header) ↔
      ¬ Inside header close row.index ∧ Inside header close next := by
  unfold Inside
  cases passes with
  | enter _ noted => exact iff_of_true (by simp [noted, Event.enters]) (by omega)
  | skip _ noted => exact iff_of_false (by simp [noted, Event.enters]) (by omega)
  | back => exact iff_of_false (fun told => by have := Row.index_of_enters told; omega) (by omega)
  | within => exact iff_of_false (fun told => by have := Row.index_of_enters told; omega) (by omega)
  | apart => exact iff_of_false (fun told => by have := Row.index_of_enters told; omega) (by omega)

/-- The run comes from such places only by the closing marker. -/
theorem closes_iff (passes : Passes header close row next) (forward : header < close) :
    row.index = close ∧ row.instruction = loopClose ↔
      Inside header close row.index ∧ ¬ Inside header close next := by
  unfold Inside
  cases passes with
  | enter => exact iff_of_false (by omega) (by omega)
  | skip => exact iff_of_false (by omega) (by omega)
  | back at_close marker => exact iff_of_true ⟨at_close, marker⟩ (by omega)
  | within => exact iff_of_false (by omega) (by omega)
  | apart => exact iff_of_false (by omega) (by omega)

/-- It leaves the loop with its header when it skips it. -/
theorem skips_iff (passes : Passes header close row next) (forward : header < close) :
    row.noted.any (Event.skips header) ↔
      Within header close row.index ∧ ¬ Within header close next := by
  unfold Within
  cases passes with
  | enter _ noted => exact iff_of_false (by simp [noted, Event.skips]) (by omega)
  | skip _ noted => exact iff_of_true (by simp [noted, Event.skips]) (by omega)
  | back => exact iff_of_false (fun told => by have := Row.index_of_skips told; omega) (by omega)
  | within => exact iff_of_false (fun told => by have := Row.index_of_skips told; omega) (by omega)
  | apart => exact iff_of_false (fun told => by have := Row.index_of_skips told; omega) (by omega)

/-- It comes to the loop from outside at the header. -/
theorem arrives_iff (passes : Passes header close row next) (forward : header < close) :
    next = header ∧ (row.index < header ∨ close < row.index) ↔
      ¬ Within header close row.index ∧ Within header close next := by
  unfold Within
  cases passes with
  | enter => omega
  | skip => omega
  | back => omega
  | within => omega
  | apart => omega

/-- A step changes both counts as it changes the side of the loop on which the run is. -/
theorem count_eq (passes : Passes header close row next) (forward : header < close) :
    entries header [row] + (if Inside header close row.index then 1 else 0) =
      closings close [row] + if Inside header close next then 1 else 0 := by
  rw [entries_singleton, closings_singleton]
  simp only [passes.enters_iff forward, passes.closes_iff forward]
  by_cases here : Inside header close row.index <;> by_cases there : Inside header close next <;>
    simp [here, there]

end Passes

/-- What holds first and not later ceases to hold at some place. -/
theorem exists_last (holds : Nat → Prop) {a b : Nat} (le : a ≤ b) (first : holds a)
    (later : ¬ holds b) :
    ∃ k, (a ≤ k ∧ k < b) ∧ ¬ holds (k + 1) ∧ ∀ j, a ≤ j → j ≤ k → holds j := by
  classical
  have fails : ∃ n, a ≤ n ∧ ¬ holds n := ⟨b, le, later⟩
  obtain ⟨behind, failed⟩ := Nat.find_spec fails
  have before (j : Nat) (after : a ≤ j) (lt : j < Nat.find fails) : holds j :=
    by_contra fun not => Nat.find_min fails lt ⟨after, not⟩
  have found_le : Nat.find fails ≤ b := Nat.find_min' fails ⟨le, later⟩
  have lt : a < Nat.find fails := lt_of_le_of_ne behind fun eq => failed (eq ▸ first)
  obtain ⟨m, found⟩ := Nat.exists_eq_add_of_lt lt
  exact ⟨a + m, by omega, found ▸ failed, fun j after le => before j after (by omega)⟩

/-- It does so at one place only before it begins to hold again. -/
theorem existsUnique_last (holds : Nat → Prop) {a b : Nat} (le : a ≤ b) (first : holds a)
    (later : ¬ holds b) :
    ∃! k, (a ≤ k ∧ k < b) ∧ (holds k ∧ ¬ holds (k + 1)) ∧
      ∀ j, a ≤ j → j < k → ¬ (¬ holds j ∧ holds (j + 1)) := by
  obtain ⟨k, ⟨after, before⟩, last, upto⟩ := exists_last holds le first later
  refine ⟨k, ⟨⟨after, before⟩, ⟨upto k after le_rfl, last⟩,
    fun j from_a lt begins => begins.1 (upto j from_a lt.le)⟩, ?_⟩
  rintro m ⟨⟨m_after, -⟩, ⟨at_m, m_last⟩, never_again⟩
  rcases Nat.lt_trichotomy m k with earlier | rfl | afterwards
  · exact absurd (upto (m + 1) (Nat.le_succ_of_le m_after) earlier) m_last
  · rfl
  · -- It would have begun to hold again in between.
    obtain ⟨j, ⟨behind, lt⟩, begins, upto_j⟩ :=
      exists_last (fun n => ¬ holds n) afterwards last (not_not_intro at_m)
    exact absurd ⟨upto_j j behind le_rfl, not_not.mp begins⟩ (never_again j (by omega) lt)

namespace Visits

variable {trail : List Row} {place : Nat → Nat} {a k : Nat}

theorem row_at (visits : Visits header close trail place) (inside : k < trail.length) :
    ∃ row, trail[k]? = some row ∧ row.index = place k ∧ Passes header close row (place (k + 1)) :=
  ⟨trail[k], List.getElem?_eq_getElem inside,
    visits.passes k _ (List.getElem?_eq_getElem inside)⟩

theorem entersAt_iff (visits : Visits header close trail place) (inside : k < trail.length) :
    EntersAt trail header k ↔
      ¬ Inside header close (place k) ∧ Inside header close (place (k + 1)) := by
  obtain ⟨row, listed, at_row, passes⟩ := visits.row_at inside
  rw [← at_row, ← passes.enters_iff visits.forward]
  simp [EntersAt, listed]

theorem closesAt_iff (visits : Visits header close trail place) (inside : k < trail.length) :
    ClosesAt trail close k ↔
      Inside header close (place k) ∧ ¬ Inside header close (place (k + 1)) := by
  obtain ⟨row, listed, at_row, passes⟩ := visits.row_at inside
  rw [← at_row, ← passes.closes_iff visits.forward]
  simp [ClosesAt, listed]

theorem skipsAt_iff (visits : Visits header close trail place) (inside : k < trail.length) :
    SkipsAt trail header k ↔
      Within header close (place k) ∧ ¬ Within header close (place (k + 1)) := by
  obtain ⟨row, listed, at_row, passes⟩ := visits.row_at inside
  rw [← at_row, ← passes.skips_iff visits.forward]
  simp [SkipsAt, listed]

theorem arrivesAt_succ_iff (visits : Visits header close trail place)
    (inside : k + 1 < trail.length) :
    ArrivesAt trail header close (k + 1) ↔
      ¬ Within header close (place k) ∧ Within header close (place (k + 1)) := by
  obtain ⟨row, listed, at_row, passes⟩ := visits.row_at (Nat.lt_of_succ_lt inside)
  obtain ⟨next, then_listed, at_next, -⟩ := visits.row_at inside
  rw [← at_row, ← passes.arrives_iff visits.forward, ← at_next]
  constructor
  · rintro ⟨⟨other, other_listed, at_header⟩, outside⟩
    rw [then_listed] at other_listed
    cases other_listed
    exact ⟨at_header, outside k row rfl listed⟩
  · rintro ⟨at_header, outside⟩
    refine ⟨⟨next, then_listed, at_header⟩, fun j other succ other_listed => ?_⟩
    obtain rfl := Nat.succ.inj succ
    rw [listed] at other_listed
    cases other_listed
    exact outside

/-- Between two moments the loop was entered as often as it was closed, unless the run is
on another side of it. -/
theorem balance (visits : Visits header close trail place) (le : a ≤ k)
    (inside : k ≤ trail.length) :
    entries header ((trail.take k).drop a) +
        (if Inside header close (place a) then 1 else 0) =
      closings close ((trail.take k).drop a) + if Inside header close (place k) then 1 else 0 := by
  induction k, le using Nat.le_induction with
  | base => simp [entries, closings]
  | succ k le ih =>
    obtain ⟨row, listed, at_row, passes⟩ := visits.row_at inside
    have longer : (trail.take (k + 1)).drop a = (trail.take k).drop a ++ [row] := by
      rw [List.take_add_one, listed, List.drop_append_of_le_length (by simp; omega)]
      rfl
    have earlier := ih (Nat.le_of_succ_le inside)
    have step := passes.count_eq visits.forward
    rw [longer, entries_append, closings_append]
    rw [at_row] at step
    omega

/-- So it is from the beginning, which is on the outside. -/
theorem balance_of_start (visits : Visits header close trail place) :
    entries header trail =
      closings close trail + if Inside header close (place trail.length) then 1 else 0 := by
  have outside : ¬ Inside header close (place 0) := fun inside => by
    rw [visits.first] at inside
    exact absurd inside.1 (Nat.not_lt_zero header)
  have balance := visits.balance (Nat.zero_le _) le_rfl
  rwa [List.take_length, List.drop_zero, if_neg outside] at balance

/-- A run that is in the loop or at its header came there from outside. -/
theorem exists_last_arrival (visits : Visits header close trail place)
    (inside : k < trail.length) (within : Within header close (place k)) :
    ∃ a ≤ k, ArrivesAt trail header close a ∧
      ∀ b, a < b → b ≤ k → ¬ ArrivesAt trail header close b := by
  induction k with
  | zero =>
    obtain ⟨row, listed, at_row, -⟩ := visits.row_at inside
    have at_header : row.index = header := by
      rw [at_row, visits.first]
      rw [visits.first] at within
      exact (Nat.le_zero.mp within.1).symm
    exact ⟨0, le_rfl, ⟨⟨row, listed, at_header⟩, fun j _ succ => absurd succ (Nat.succ_ne_zero j)⟩,
      fun b later le => by omega⟩
  | succ k ih =>
    by_cases before : Within header close (place k)
    · obtain ⟨a, le, arrives, none_since⟩ := ih (Nat.lt_of_succ_lt inside) before
      refine ⟨a, Nat.le_succ_of_le le, arrives, fun b later le_succ => ?_⟩
      rcases Nat.le_succ_iff.mp le_succ with le | rfl
      · exact none_since b later le
      · exact fun arrives => ((visits.arrivesAt_succ_iff inside).mp arrives).1 before
    · exact ⟨k + 1, le_rfl, (visits.arrivesAt_succ_iff inside).mpr ⟨before, within⟩,
        fun b later le => by omega⟩

/-- Since the run came to a loop that it skips, it entered the loop as often as it closed
it. -/
theorem settled (visits : Visits header close trail place) (skips : SkipsAt trail header k) :
    ∃ a ≤ k, ArrivesAt trail header close a ∧
      (∀ b, a < b → b ≤ k → ¬ ArrivesAt trail header close b) ∧
      entries header ((trail.take k).drop a) = closings close ((trail.take k).drop a) := by
  have inside : k < trail.length := lt_length_of_row skips
  obtain ⟨row, listed, told⟩ := skips
  have at_header : place k = header := by
    rw [← (visits.passes k row listed).1, Row.index_of_skips told]
  obtain ⟨a, le, arrives, none_since⟩ :=
    visits.exists_last_arrival inside ⟨at_header.ge, by rw [at_header]; exact visits.forward.le⟩
  obtain ⟨first, first_listed, first_at⟩ := arrives.1
  have came : place a = header := by rw [← (visits.passes a first first_listed).1, first_at]
  have balance := visits.balance le inside.le
  rw [at_header, came] at balance
  exact ⟨a, le, arrives, none_since, Nat.add_right_cancel balance⟩

/-- In a run that ends outside of the loop, each entry is followed by one closing marker
before the next. -/
theorem existsUnique_closing (visits : Visits header close trail place)
    (ends : ¬ Inside header close (place trail.length)) (enters : EntersAt trail header k) :
    ∃! m, k < m ∧ ClosesAt trail close m ∧ ∀ j, k < j → j < m → ¬ EntersAt trail header j := by
  have inside : k < trail.length := lt_length_of_row enters
  have entered := ((visits.entersAt_iff inside).mp enters).2
  refine (existsUnique_congr fun m => ?_).mp
    (existsUnique_last (fun m => Inside header close (place m)) inside entered ends)
  constructor
  · rintro ⟨⟨later, lt⟩, leaves, never⟩
    exact ⟨later, (visits.closesAt_iff lt).mpr leaves, fun j behind before again =>
      never j behind before ((visits.entersAt_iff (before.trans lt)).mp again)⟩
  · rintro ⟨later, closes, never⟩
    have lt : m < trail.length := lt_length_of_row closes
    exact ⟨⟨later, lt⟩, (visits.closesAt_iff lt).mp closes, fun j behind before begins =>
      never j behind before ((visits.entersAt_iff (before.trans lt)).mpr begins)⟩

/-- There each arrival at the loop is followed by one skip before the next. -/
theorem existsUnique_skip (visits : Visits header close trail place)
    (ends : ¬ Within header close (place trail.length))
    (arrives : ArrivesAt trail header close a) :
    ∃! k, a ≤ k ∧ SkipsAt trail header k ∧
      ∀ b, a < b → b ≤ k → ¬ ArrivesAt trail header close b := by
  obtain ⟨⟨row, listed, at_header⟩, -⟩ := arrives
  have inside : a < trail.length := (List.getElem?_eq_some_iff.mp listed).1
  have within : Within header close (place a) := by
    rw [← (visits.passes a row listed).1, at_header]
    exact ⟨le_rfl, visits.forward.le⟩
  refine (existsUnique_congr fun k => ?_).mp
    (existsUnique_last (fun k => Within header close (place k)) inside.le within ends)
  constructor
  · rintro ⟨⟨later, lt⟩, leaves, never⟩
    refine ⟨later, (visits.skipsAt_iff lt).mpr leaves, fun b behind le again => ?_⟩
    obtain ⟨j, rfl⟩ := Nat.exists_eq_succ_of_ne_zero (Nat.ne_zero_of_lt behind)
    exact never j (Nat.le_of_lt_succ behind) le
      ((visits.arrivesAt_succ_iff (le.trans_lt lt)).mp again)
  · rintro ⟨later, skips, never⟩
    have lt : k < trail.length := lt_length_of_row skips
    exact ⟨⟨later, lt⟩, (visits.skipsAt_iff lt).mp skips, fun j behind before begins =>
      never (j + 1) (Nat.lt_succ_of_le behind) before
        ((visits.arrivesAt_succ_iff (Nat.lt_of_le_of_lt before lt)).mpr begins)⟩

end Visits

end Execution

namespace Interpreter

open Execution Nesting

/-- The rows of the first steps of an execution. -/
def trail (i : Interpreter) (code : String) (n : Nat) : List Row :=
  rows (Program.ofString code) i.registry n (i.initial code)

variable {i : Interpreter} {code : String} {n header close : Nat}

/-- The rows of an execution pass every loop of its program. -/
theorem visits_trail (i : Interpreter) (code : String) (n : Nat)
    (loop : Partners code.toList header close) :
    Visits header close (i.trail code n) fun k => (i.stateAfter code k).index := by
  refine ⟨loop.2.2.1, rfl, fun k row listed => ?_⟩
  obtain ⟨before, after, passed, next, performs⟩ := exists_of_getElem?_rows listed
  have nested := nested_of_reaches passed
  simp only [stateAfter_eq passed, stateAfter_eq next]
  exact ⟨(tells_of_performs nested performs).index, performs.passes loop nested⟩

theorem trail_length_trail (i : Interpreter) (code : String) (n : Nat) :
    i.trail code (i.trail code n).length = i.trail code n :=
  rows_length_rows _ _ n _

/-- The journal of an execution so far: the engine has noted its beginning and the notes of
its rows. -/
theorem journal_of_reaches {c : Configuration} (reached : i.Reaches code n c) :
    c.machine.journal.filter = i.machine.journal.filter ∧
      c.machine.journal.ofEngine = i.machine.journal.ofEngine ++
        (Event.executionStarted (Program.ofString code).size i.machine.tape.size ::
          (i.trail code n).filterMap Row.noted).filter i.machine.journal.filter.passes := by
  let started := Event.executionStarted (Program.ofString code).size i.machine.tape.size
  have filter : (i.initial code).machine.journal.filter = i.machine.journal.filter :=
    Journal.filter_record i.machine.journal started
  have begun : (i.initial code).machine.journal.ofEngine = i.machine.journal.ofEngine ++
      [started].filter i.machine.journal.filter.passes := Journal.ofEngine_record _ rfl
  obtain ⟨filters, noted⟩ := journal_of_advance reached
  refine ⟨filters.trans filter, ?_⟩
  rw [noted, filter, begun, List.append_assoc, ← List.filter_append]
  rfl

/-- A loop is a marker that the search finds another one for. -/
theorem partners_of_findClose (opened : (Program.ofString code)[header]? = some loopOpen)
    (found : (Program.ofString code).findClose header = .ok close) :
    Partners code.toList header close := by
  rw [← Array.getElem?_toList, toList_ofString] at opened
  exact (partner_eq_some_iff opened).mp (findClose_eq_ok_iff.mp found)

/-- An execution that went well passed the states of its rows and came to the end of its
program. -/
theorem exists_end_of_execute {after : Interpreter}
    (executed : i.execute n code = some (.ok (), after)) :
    ∃ final, i.Reaches code (i.trail code n).length final ∧ final.index = code.toList.length ∧
      after = ⟨final.machine.record (.executionFinished (i.trail code n).length), i.registry⟩ := by
  rw [execute_eq] at executed
  cases run : advance (Program.ofString code) i.registry n (i.initial code) with
  | running c =>
    rw [run] at executed
    cases executed
  | halted result final =>
    rw [run] at executed
    cases executed
    obtain ⟨complete, last⟩ := rows_of_halted run
    have counted : final.steps = (i.trail code n).length :=
      (steps_of_advance complete).trans (Nat.zero_add _)
    cases last with
    | finish ended =>
      exact ⟨final, complete, ((nested_of_reaches complete).calls_eq_nil ended).1,
        by rw [counted]; rfl⟩

/-- The engine notes the beginning of an execution and then one event for every opening
marker that it performs, which says whether the loop was entered or skipped and where it
ends. In every state a loop was entered once more often than its closing marker was
performed if the state is in the loop, and as often if it is not; and when it is skipped,
as often since the execution came to it from outside. If all goes well, one closing marker
follows each entry before the next, and one skip each arrival from outside. -/
theorem loop_events_balance (i : Interpreter) (code : String) :
    let program := Program.ofString code
    (∀ n c, i.Reaches code n c →
      let trail := i.trail code n
      trail.length = n ∧
      c.machine.journal.ofEngine = i.machine.journal.ofEngine ++
        (Event.executionStarted program.size i.machine.tape.size ::
          trail.filterMap Row.noted).filter i.machine.journal.filter.passes ∧
      (∀ row ∈ trail, row.NotesLoop program) ∧
      ∀ header close, program[header]? = some loopOpen → program.findClose header = .ok close →
        entries header trail =
          closings close trail + (if header < c.index ∧ c.index ≤ close then 1 else 0) ∧
        ∀ k, SkipsAt trail header k → ∃ a ≤ k, ArrivesAt trail header close a ∧
          (∀ b, a < b → b ≤ k → ¬ ArrivesAt trail header close b) ∧
          entries header ((trail.take k).drop a) = closings close ((trail.take k).drop a)) ∧
    ∀ n after, i.execute n code = some (.ok (), after) →
      let trail := i.trail code n
      after.machine.journal.ofEngine = i.machine.journal.ofEngine ++
        (Event.executionStarted program.size i.machine.tape.size ::
          trail.filterMap Row.noted ++ [Event.executionFinished trail.length]).filter
            i.machine.journal.filter.passes ∧
      ∀ header close, program[header]? = some loopOpen → program.findClose header = .ok close →
        entries header trail = closings close trail ∧
        (∀ k, EntersAt trail header k → ∃! m, k < m ∧ ClosesAt trail close m ∧
          ∀ j, k < j → j < m → ¬ EntersAt trail header j) ∧
        ∀ a, ArrivesAt trail header close a → ∃! k, a ≤ k ∧ SkipsAt trail header k ∧
          ∀ b, a < b → b ≤ k → ¬ ArrivesAt trail header close b := by
  intro program
  refine ⟨fun n c reached => ?_, fun n after executed => ?_⟩
  · have complete : (i.trail code n).length = n := length_rows_of_advance reached
    refine ⟨complete, (journal_of_reaches reached).2, fun row member => ?_,
      fun header close opened found => ?_⟩
    · obtain ⟨k, listed⟩ := List.mem_iff_getElem?.mp member
      obtain ⟨_, _, -, -, performs⟩ := exists_of_getElem?_rows listed
      exact notesLoop_of_performs performs
    · have visits := i.visits_trail code n (partners_of_findClose opened found)
      have balance := visits.balance_of_start
      simp only [complete, stateAfter_eq reached] at balance
      exact ⟨balance, fun k => visits.settled⟩
  · obtain ⟨final, complete, at_end, rfl⟩ := exists_end_of_execute executed
    obtain ⟨filter, noted⟩ := journal_of_reaches complete
    refine ⟨?_, fun header close opened found => ?_⟩
    · rw [Machine.record, Journal.ofEngine_record _ rfl, noted, filter, List.append_assoc,
        ← List.filter_append, trail_length_trail]
    · have loop := partners_of_findClose opened found
      have visits := i.visits_trail code n loop
      have inside : close < code.toList.length := lt_length_of_read loop.2.1
      have at_last : (i.stateAfter code (i.trail code n).length).index = code.toList.length := by
        rw [stateAfter_eq complete, at_end]
      have outside : ¬ Within header close (i.stateAfter code (i.trail code n).length).index :=
        fun within => absurd (at_last ▸ within.2) (Nat.not_le.mpr inside)
      have behind : ¬ Inside header close (i.stateAfter code (i.trail code n).length).index :=
        fun inside => outside ⟨inside.1.le, inside.2⟩
      refine ⟨?_, fun k => visits.existsUnique_closing behind,
        fun a => visits.existsUnique_skip outside⟩
      rw [visits.balance_of_start, if_neg behind, Nat.add_zero]

/-- A loop that clears its cell at once is entered and closed once before it is skipped. -/
example :
    let m : Machine := ⟨.blank 2 .byte (by decide), .collecting, .stream [], none, none, [], {}⟩
    let trail := trail ⟨m, .empty⟩ "+[-]" 6
    trail.filterMap Row.noted = [.loopEntered 1 3, .loopSkipped 1 3] ∧
      entries 1 trail = 1 ∧ closings 3 trail = 1 := by decide

end Interpreter

end RingTape
