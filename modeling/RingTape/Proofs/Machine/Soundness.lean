/-
# What no command can break

A tape has the size and the mode that it was built with, its pointer is on one of its
cells, and byte cells hold bytes. Every operation keeps that, the commands that a user
writes included, because a routine has no other way to the cells than the operations of
the tape.

Outside a program a machine knows no position. A command is given one for as long as it
runs, and whatever it reports meanwhile carries that position and no other.
-/

import RingTape.Proofs.Machine.Effects

namespace RingTape

/-- A number in a byte cell is the value of a byte. -/
theorem CellMode.toInt_normalize_byte_mem (value : Int64) :
    0 ≤ (normalize .byte value).toInt ∧ (normalize .byte value).toInt ≤ 255 := by
  rw [toInt_normalize_byte]
  omega

namespace Tape

/-- What holds of every tape that was built with a size and a mode. The cell at the
pointer is one of the cells, and it is the one that is read. -/
structure Sound (size : Nat) (mode : CellMode) (t : Tape) : Prop where
  size_eq : t.size = size
  mode_eq : t.mode = mode
  pointer_lt : t.pointer < size
  get_eq : t.cells[t.pointer]? = some t.get
  bytes : mode = .byte → ∀ value ∈ t.cells, 0 ≤ value.toInt ∧ value.toInt ≤ 255

variable {size : Nat} {mode : CellMode} {t : Tape}

/-- That the pointer is on a cell is part of every tape, so the rest is enough. -/
theorem Sound.of_cells (size_eq : t.size = size) (mode_eq : t.mode = mode)
    (bytes : mode = .byte → ∀ value ∈ t.cells, 0 ≤ value.toInt ∧ value.toInt ≤ 255) :
    t.Sound size mode where
  size_eq
  mode_eq
  pointer_lt := size_eq ▸ t.pointer_lt
  get_eq := Array.getElem?_eq_getElem t.pointer_lt
  bytes

theorem sound_blank (positive : 0 < size) : (blank size mode positive).Sound size mode := by
  refine .of_cells (size_blank size mode positive) rfl fun _ value member => ?_
  obtain rfl : value = 0 := (Array.mem_replicate.mp member).2
  decide

theorem Sound.forward (sound : t.Sound size mode) : t.forward.Sound size mode :=
  .of_cells (t.size_forward.trans sound.size_eq) (t.mode_forward.trans sound.mode_eq)
    (t.cells_forward ▸ sound.bytes)

theorem Sound.back (sound : t.Sound size mode) : t.back.Sound size mode :=
  .of_cells (t.size_back.trans sound.size_eq) (t.mode_back.trans sound.mode_eq)
    (t.cells_back ▸ sound.bytes)

/-- Whatever number is stored, a byte cell keeps a byte of it. -/
theorem Sound.set (sound : t.Sound size mode) (value : Int64) : (t.set value).Sound size mode := by
  apply Sound.of_cells ((t.size_set value).trans sound.size_eq) sound.mode_eq
  intro byte other member
  have stored_cells : other ∈ t.cells.set t.pointer (t.mode.normalize value) t.pointer_lt := member
  rcases Array.mem_or_eq_of_mem_set stored_cells with kept | stored
  · exact sound.bytes byte other kept
  · rw [stored, sound.mode_eq, byte]
    exact CellMode.toInt_normalize_byte_mem value

/-- A reset leaves just the tape that would be built anew. -/
theorem Sound.reset_eq (sound : t.Sound size mode) (positive : 0 < size) :
    t.reset = blank size mode positive := by
  obtain ⟨rfl, rfl, -, -, -⟩ := sound
  rfl

theorem Sound.reset (sound : t.Sound size mode) : t.reset.Sound size mode := by
  have positive : 0 < size := Nat.zero_lt_of_lt sound.pointer_lt
  rw [sound.reset_eq positive]
  exact sound_blank positive

end Tape

namespace Machine

variable {size : Nat} {mode : CellMode} {m : Machine}

/-- Every routine keeps the tape sound. -/
theorem sound_perform (routine : Routine) (sound : m.tape.Sound size mode) :
    (m.perform routine).tape.Sound size mode := by
  induction routine generalizing m with
  | done => exact sound
  | forward next ih => exact ih sound.forward
  | back next ih => exact ih sound.back
  | get next ih => exact ih m.get sound
  | inspect next ih => exact ih m.tape sound
  | set value next ih => exact ih (sound.set value)
  | reset next ih => exact ih sound.reset
  | emit value next ih => exact ih ((m.frame_emit value).1 ▸ sound)
  | readLine next ih => exact ih m.source.read.1 sound
  | report problem next ih => exact ih sound
  | retrieve slot next ih => exact ih (m.retrieve slot) sound
  | keep slot value next ih => exact ih sound

/-- No routine changes the position. -/
theorem position_perform (routine : Routine) (m : Machine) :
    (m.perform routine).position = m.position := by
  induction routine generalizing m with
  | done => rfl
  | forward next ih => exact ih m.forward
  | back next ih => exact ih m.back
  | get next ih => exact ih m.get m
  | inspect next ih => exact ih m.tape m
  | set value next ih => exact ih (m.set value)
  | reset next ih => exact ih m.reset
  | emit value next ih => exact (ih (m.emit value)).trans (position_emit m value)
  | readLine next ih => exact ih m.source.read.1 m.readLine.2
  | report problem next ih => exact ih (m.report problem)
  | retrieve slot next ih => exact ih (m.retrieve slot) m
  | keep slot value next ih => exact ih (m.keep slot value)

/-- Whatever was reported since `base` carries one position. -/
def ReportsAt (position : Option Nat) (base m : Machine) : Prop :=
  ∃ effects, Observed base effects m ∧
    ∀ diagnostic, .reported diagnostic ∈ effects → diagnostic.position = position

theorem ReportsAt.trans {position : Option Nat} {base middle m : Machine}
    (before : ReportsAt position base middle) (since : ReportsAt position middle m) :
    ReportsAt position base m := by
  obtain ⟨first, observed, positions⟩ := before
  obtain ⟨second, observed', positions'⟩ := since
  refine ⟨first ++ second, observed.trans observed', fun diagnostic member => ?_⟩
  exact (List.mem_append.mp member).elim (positions diagnostic) (positions' diagnostic)

/-- What tells no observer anything reports nothing either. -/
theorem ReportsAt.behind {position : Option Nat} {base middle m : Machine}
    (since : ReportsAt position middle m) (silent : Observed base [] middle) :
    ReportsAt position base m :=
  .trans ⟨[], silent, fun _ member => nomatch member⟩ since

/-- Whatever a routine reports carries the position that the machine knows. -/
theorem reportsAt_perform (routine : Routine) (m : Machine) :
    ReportsAt m.position m (m.perform routine) := by
  induction routine generalizing m with
  | done => exact ⟨[], .refl m, fun _ member => nomatch member⟩
  | forward next ih => exact (ih m.forward).behind { Observed.refl m with }
  | back next ih => exact (ih m.back).behind { Observed.refl m with }
  | get next ih => exact ih m.get m
  | inspect next ih => exact ih m.tape m
  | set value next ih => exact (ih (m.set value)).behind { Observed.refl m with }
  | reset next ih => exact (ih m.reset).behind { Observed.refl m with }
  | emit value next ih =>
    have emitted : ReportsAt m.position m (m.emit value) :=
      ⟨[.emitted value], observed_emit m value, fun _ member => by simp at member⟩
    exact emitted.trans (position_emit m value ▸ ih (m.emit value))
  | readLine next ih =>
    exact (ih m.source.read.1 m.readLine.2).behind { Observed.refl m with }
  | report problem next ih =>
    have reported : ReportsAt m.position m (m.report problem) := by
      refine ⟨_, observed_report m problem, fun diagnostic member => ?_⟩
      obtain rfl : diagnostic = ⟨m.position, problem⟩ := by simpa using member
      rfl
    exact reported.trans (ih (m.report problem))
  | retrieve slot next ih => exact ih (m.retrieve slot) m
  | keep slot value next ih =>
    exact (ih (m.keep slot value)).behind { Observed.refl m with }

/-- A machine between two operations: its tape is sound and no command runs. -/
structure Settled (size : Nat) (mode : CellMode) (m : Machine) : Prop where
  tape : m.tape.Sound size mode
  position : m.position = none

end Machine

end RingTape
