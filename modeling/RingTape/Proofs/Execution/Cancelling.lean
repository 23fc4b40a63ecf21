/-
# Cancelling pairs

Two commands next to each other that undo each other can be put into a program anywhere,
or taken out, and it comes to the same end. They may stand in a loop that is skipped, or in
one that is run many times, and the rest of the program need not be well formed.

The run of the longer text is two steps behind whenever it comes to the pair. Having taken
them it is where the other run is, with the machine as before. A loop never brings it into
the middle of the pair: it goes back to an opening marker and on behind a closing one. So
the states between the steps of the other run are of two kinds only, before the pair and
at the place that corresponds.
-/

import RingTape.Proofs.Command.Inverse
import RingTape.Proofs.Execution.Correspondence
import RingTape.Proofs.Program.Insertion

namespace RingTape

/-- The segments of two commands of which the second undoes the first. -/
def cancellingPairs : List String := ["><", "<>", "+-", "-+"]

/-- Each of them is written with a command and its inverse. -/
theorem exists_inverse_of_mem_cancellingPairs {pair : String} (cancels : pair ∈ cancellingPairs) :
    ∃ b b' : Builtin, b.inverse? = some b' ∧ pair.toList = [b.symbol, b'.symbol] := by
  simp only [cancellingPairs, List.mem_cons, List.not_mem_nil, or_false] at cancels
  rcases cancels with rfl | rfl | rfl | rfl
  · exact ⟨.right, .left, rfl, rfl⟩
  · exact ⟨.left, .right, rfl, rfl⟩
  · exact ⟨.increment, .decrement, rfl, rfl⟩
  · exact ⟨.decrement, .increment, rfl, rfl⟩

namespace Execution

open Nesting

variable {size : Nat} {mode : CellMode}

/-- A step keeps the tape sound. -/
theorem sound_of_performs {text : List Char} {registry : Registry} {c after : Configuration}
    {row : Row} (sound : c.machine.tape.Sound size mode)
    (performs : Performs text registry c (.next row after)) :
    after.machine.tape.Sound size mode := by
  cases performs with
  | command name routine read resolved => exact Machine.sound_perform routine sound
  | enter close read found nonzero => exact sound
  | skip close read found zero => exact sound
  | back header outer read calls => exact sound

/-- States of runs of a text and of the same text with two characters put in at `start`.
They correspond, but where the first is at the insertion, the second may still be before the
two characters. -/
structure Inserted (start size : Nat) (mode : CellMode) (base : Machine) (c d : Configuration) :
    Prop where
  index : d.index = shiftFrom start 2 c.index ∨ c.index = start ∧ d.index = start
  calls : d.calls = c.calls.map (shiftFrom start 2)
  machine : Machine.Relocated (shiftFrom start 2) base c.machine d.machine
  sound : d.machine.tape.Sound size mode

variable {front back : List Char} {b b' : Builtin} {program : Program} {registry : Registry}
  {base : Machine} {c d : Configuration}

/-- A pair that is still ahead is passed, and changes nothing. -/
theorem Inserted.exists_corresponds (inverse : b.inverse? = some b')
    (whole : program.toList = front ++ [b.symbol, b'.symbol] ++ back)
    (inserted : Inserted front.length size mode base c d) :
    ∃ k d', advance program registry k d = .running d' ∧
      Corresponds (shiftFrom front.length 2) base c d' ∧ d'.machine.tape.Sound size mode := by
  obtain ⟨here | ⟨here, ahead⟩, calls, machine, sound⟩ := inserted
  · exact ⟨0, d, rfl, ⟨here, calls, machine⟩, sound⟩
  · have first : program.toList[d.index]? = some b.symbol := by
      rw [whole, ahead, List.append_assoc, List.getElem?_append_right le_rfl, Nat.sub_self]
      rfl
    have second : program.toList[d.index + 1]? = some b'.symbol := by
      rw [whole, ahead, List.append_assoc, List.getElem?_append_right (Nat.le_add_right _ 1),
        Nat.add_sub_cancel_left]
      rfl
    have does := Performs.command (c := d) _ _ first (registry.resolve_symbol b)
    have undoes := Performs.command (c := d.performed b.routine) _ _ second
      (registry.resolve_symbol b')
    have undone : ((d.performed b.routine).performed b'.routine).machine =
        { d.machine with position := none } :=
      Machine.performAt_performAt_inverse inverse sound d.index (d.index + 1)
    refine ⟨2, (d.performed b.routine).performed b'.routine, ?_, ⟨?_, calls, ?_⟩, ?_⟩
    · rw [advance_succ_of_next does, advance_succ_of_next undoes, advance]
    · rw [here, shiftFrom_of_le le_rfl, ← ahead]
      rfl
    · rw [undone]
      exact { machine with }
    · rw [undone]
      exact sound

/-- What follows the place that corresponds is of one of the two kinds again. -/
theorem index_of_follows {start index index' : Nat}
    (follows : Follows (shiftFrom start 2) index index') :
    index' = shiftFrom start 2 index ∨ index = start ∧ index' = start := by
  rcases follows with same | ⟨before, rfl, rfl⟩
  · exact .inl same
  · exact shiftFrom_succ start 2 before

variable (whole : program.toList = front ++ [b.symbol, b'.symbol] ++ back)

include whole

/-- The text with the pair has the same characters at corresponding places, -/
theorem Corresponds.getElem?_inserted
    (corresponds : Corresponds (shiftFrom front.length 2) base c d) :
    program.toList[d.index]? = (front ++ back)[c.index]? := by
  rw [whole, corresponds.index]
  exact getElem?_shiftFrom front [b.symbol, b'.symbol] back c.index

/-- and the same markers belong together. -/
theorem Corresponds.partner_inserted
    (corresponds : Corresponds (shiftFrom front.length 2) base c d) :
    partner program.toList d.index =
      (partner (front ++ back) c.index).map (shiftFrom front.length 2) := by
  have plain : ∀ x ∈ [b.symbol, b'.symbol], x ≠ loopOpen ∧ x ≠ loopClose := by
    intro x member
    rcases List.mem_pair.mp member with rfl | rfl
    · exact b.symbol_ne_marker
    · exact b'.symbol_ne_marker
  rw [whole, corresponds.index]
  exact partner_insert plain front back c.index

variable (inverse : b.inverse? = some b')

include inverse

/-- The run with the pair keeps up with the run without it. -/
theorem Inserted.step (inserted : Inserted front.length size mode base c d) {row : Row}
    {after : Configuration} (performs : Performs (front ++ back) registry c (.next row after)) :
    ∃ k after', advance program registry (k + 1) d = .running after' ∧
      Inserted front.length size mode base after after' := by
  obtain ⟨k, d', passed, corresponds, sound⟩ := inserted.exists_corresponds inverse whole
  have same (name : Char) (read : (front ++ back)[c.index]? = some name) :
      program.toList[d'.index]? = some name ∧ registry.resolve name = registry.resolve name :=
    ⟨(corresponds.getElem?_inserted whole).trans read, rfl⟩
  have matched (close : Nat) (_ : (front ++ back)[c.index]? = some loopOpen)
      (found : partner (front ++ back) c.index = some close) :
      partner program.toList d'.index = some (shiftFrom front.length 2 close) := by
    rw [corresponds.partner_inserted whole, found, Option.map_some]
  obtain ⟨row', after', performs', follows, calls, machine⟩ :=
    corresponds.step same matched performs
  refine ⟨k, after', ?_, index_of_follows follows, calls, machine,
    sound_of_performs sound performs'⟩
  rw [advance_add passed, advance_succ_of_next performs', advance]

/-- It ends where the other ends. -/
theorem Inserted.halt (inserted : Inserted front.length size mode base c d)
    {result : Except ExecutionError Unit}
    (performs : Performs (front ++ back) registry c (.halt result c)) :
    ∃ k d', advance program registry k d = .running d' ∧
      Inserted front.length size mode base c d' ∧
      Performs program.toList registry d'
        (.halt (result.mapError (ExecutionError.relocate (shiftFrom front.length 2))) d') := by
  obtain ⟨k, d', passed, corresponds, sound⟩ := inserted.exists_corresponds inverse whole
  have read_eq := corresponds.getElem?_inserted whole
  have same (name : Char) (read : (front ++ back)[c.index]? = some name) :
      program.toList[d'.index]? = some name ∧ registry.resolve name = registry.resolve name :=
    ⟨read_eq.trans read, rfl⟩
  have unmatched (_ : (front ++ back)[c.index]? = some loopOpen)
      (alone : partner (front ++ back) c.index = none) :
      partner program.toList d'.index = none := by
    rw [corresponds.partner_inserted whole, alone, Option.map_none]
  exact ⟨k, d', passed, ⟨.inl corresponds.index, corresponds.calls, corresponds.machine, sound⟩,
    corresponds.halt same read_eq.trans unmatched performs⟩

end Execution

namespace Interpreter

open Execution Nesting

variable {size : Nat} {mode : CellMode}

/-- An execution of a program keeps up with that of the program without a cancelling
pair. -/
theorem outruns_of_cancelling (i : Interpreter) (sound : i.machine.tape.Sound size mode)
    (front back : String) {pair : String} (cancels : pair ∈ cancellingPairs) :
    Outruns (Inserted front.toList.length size mode i.machine)
      (ExecutionError.relocate (shiftFrom front.toList.length 2)) i (front ++ back) i
      (front ++ pair ++ back) := by
  obtain ⟨b, b', inverse, spelled⟩ := exists_inverse_of_mem_cancellingPairs cancels
  have without : (front ++ back).toList = front.toList ++ back.toList := String.toList_append
  have whole : (Program.ofString (front ++ pair ++ back)).toList =
      front.toList ++ [b.symbol, b'.symbol] ++ back.toList := by
    rw [toList_ofString, String.toList_append, String.toList_append, spelled]
  refine ⟨?_, ?_, ?_⟩
  · refine ⟨?_, rfl, ?_, sound⟩
    · by_cases first : front.toList.length = 0
      · exact .inr ⟨first.symm, first.symm⟩
      · exact .inl (shiftFrom_of_lt (Nat.pos_of_ne_zero first) 2).symm
    · exact ((Machine.Relocated.refl _ i.machine).record_left rfl).record_right rfl
  · intro c d row after inserted performs
    rw [without] at performs
    exact inserted.step whole inverse performs
  · intro c d result inserted performs
    rw [without] at performs
    exact inserted.halt whole inverse performs

/-- A cancelling pair is invisible wherever it stands. Whether or not the program around it
is well formed, and whatever the commands and the input are, the program ends with the pair
exactly if it ends without it. Then it has put out the same numbers and has left the same
tape, input and memory, and result and diagnostics are the same but for the positions from
the pair on, which are two more. All that is asked of the machine is that byte cells hold
bytes, as they always do. -/
theorem execute_insert_cancelling (i : Interpreter)
    (bytes : i.machine.tape.mode = .byte →
      ∀ value ∈ i.machine.tape.cells, 0 ≤ value.toInt ∧ value.toInt ≤ 255)
    (front pair back : String) (cancels : pair ∈ cancellingPairs) :
    let place := shiftFrom front.length 2
    (i.Terminates (front ++ pair ++ back) ↔ i.Terminates (front ++ back)) ∧
    ∀ result after result' after', i.Executes (front ++ back) result after →
      i.Executes (front ++ pair ++ back) result' after' →
      result' = result.mapError (ExecutionError.relocate place) ∧
        Machine.Relocated place i.machine after.machine after'.machine ∧
        after'.registry = after.registry := by
  have sound : i.machine.tape.Sound i.machine.tape.size i.machine.tape.mode :=
    .of_cells rfl rfl bytes
  have outruns := outruns_of_cancelling i sound front back cancels
  rw [String.length_toList] at outruns
  refine ⟨outruns.terminates_iff, ?_⟩
  intro result after result' after' executed whole
  obtain ⟨c, d, inserted, rfl, ends⟩ := outruns.exists_executes executed
  obtain ⟨rfl, rfl⟩ := ends.unique whole
  exact ⟨rfl, relocated_closing inserted.machine, rfl⟩

/-- A pair in a loop on a tape of one byte cell that holds the greatest byte. The input is
exhausted, which is reported two positions further on. -/
theorem execute_insert_cancelling_in_loop :
    let i : Interpreter := (ofTape ⟨#[255], 0, .byte, by decide⟩ .collecting (.stream [])).setHook
    (∀ value ∈ i.machine.tape.cells, 0 ≤ value.toInt ∧ value.toInt ≤ 255) ∧
      "+-" ∈ cancellingPairs ∧
      ∃ after after', i.Executes ("[" ++ "+,]") (.ok ()) after ∧
        i.Executes ("[" ++ "+-" ++ "+,]") (.ok ()) after' ∧
        after.machine.hook = some [⟨some 2, .exhausted⟩] ∧
        Machine.Relocated (shiftFrom 1 2) i.machine after.machine after'.machine := by
  intro i
  have bytes : ∀ value ∈ i.machine.tape.cells, 0 ≤ value.toInt ∧ value.toInt ≤ 255 := by
    intro value member
    obtain rfl : value = 255 := Array.mem_singleton.mp member
    decide
  have cancels : "+-" ∈ cancellingPairs := by decide
  have ended : (i.execute 6 ("[" ++ "+,]")).map (fun answer => (answer.1, answer.2.machine.hook)) =
      some (.ok (), some [⟨some 2, .exhausted⟩]) := by decide
  obtain ⟨⟨result, after⟩, executed, equal⟩ := Option.map_eq_some_iff.mp ended
  obtain ⟨rfl, reported⟩ := Prod.mk.inj equal
  obtain ⟨terminates_iff, same⟩ :=
    execute_insert_cancelling i (fun _ => bytes) "[" "+-" "+,]" cancels
  obtain ⟨result', after', executed'⟩ := terminates_iff.mpr ⟨_, after, 6, executed⟩
  obtain ⟨rfl, related, -⟩ := same _ after result' after' ⟨6, executed⟩ executed'
  exact ⟨bytes, cancels, after, after', ⟨6, executed⟩, executed', reported, related⟩

end Interpreter

end RingTape
