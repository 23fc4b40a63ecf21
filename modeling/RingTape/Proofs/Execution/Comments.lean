/-
# Programs with comments

A character that means nothing ends a run, so a text with comments is filtered before
it is executed. What the filter drops is just what a registry does not know. If each
dropped character is made a command that does nothing, the whole text can be executed
as well, and does the same at other positions.

A run of the whole text takes a step of its own for every character of a comment, so
the two runs are not in step. They are compared by the kept characters that lie before
the index: a run of the whole text first passes through a comment, which changes nothing
that is compared, and then takes the step that the other takes. Loops skip and repeat
comments together with the characters around them.
-/

import Mathlib.Data.List.Dedup
import RingTape.Proofs.Command.Registration
import RingTape.Proofs.Execution.Concatenation
import RingTape.Proofs.Execution.Ending
import RingTape.Proofs.Program.Filtering

namespace RingTape

namespace Registry

/-- The characters of a text that are neither markers nor commands, each of them once. -/
def comments (r : Registry) (text : String) : List Char :=
  (text.toList.filter fun c => c ≠ loopOpen ∧ c ≠ loopClose ∧ r.contains c = false).dedup

theorem mem_comments_iff {r : Registry} {text : String} {c : Char} :
    c ∈ r.comments text ↔
      c ∈ text.toList ∧ c ≠ loopOpen ∧ c ≠ loopClose ∧ r.contains c = false := by
  rw [comments, List.mem_dedup, List.mem_filter, decide_eq_true_eq]

/-- What is kept of a text are the markers and the commands. -/
theorem isInstruction_iff (r : Registry) (c : Char) :
    isInstruction r.customNames c ↔ c = loopOpen ∨ c = loopClose ∨ r.contains c := by
  rw [isInstruction, Bool.or_eq_true, List.contains_iff_mem, mem_instructions_iff,
    ← isCustom_eq_contains, contains, Bool.or_eq_true]
  tauto

/-- What is dropped are the comments. -/
theorem isInstruction_eq_false_iff (r : Registry) (c : Char) :
    isInstruction r.customNames c = false ↔
      c ≠ loopOpen ∧ c ≠ loopClose ∧ r.contains c = false := by
  rw [← Bool.not_eq_true, isInstruction_iff, not_or, not_or, Bool.not_eq_true]

/-- A registry that knows the kept characters of a text as another registry does, and
for each of the others a routine that does nothing. -/
structure Ignores (keep : Char → Bool) (text : List Char) (r others : Registry) : Prop where
  keeps_open : keep loopOpen = true
  keeps_close : keep loopClose = true
  kept : ∀ c ∈ text, keep c = true → others.resolve c = r.resolve c
  dropped : ∀ c ∈ text, keep c = false → others.resolve c = some .done

end Registry

namespace Execution

open Nesting

/-- A state of a run of what is kept of a text and one of a run of the whole text. As
many kept characters lie before the index of the second as the first has passed, and the
same holds of the markers on the stacks. -/
structure Interspersed (keep : Char → Bool) (text : List Char) (base : Machine)
    (c d : Configuration) : Prop where
  index : text.countPBefore keep d.index = c.index
  calls : d.calls.map (text.countPBefore keep) = c.calls
  machine : Machine.Relocated (text.findIdxNth keep) base c.machine d.machine

/-- The two states are about to take the same step: both read the same character, or
both are at the end. -/
structure Settled (keep : Char → Bool) (text : List Char) (base : Machine)
    (c d : Configuration) : Prop extends Interspersed keep text base c d where
  read : text[d.index]? = (text.filter keep)[c.index]?

variable {keep : Char → Bool} {program filtered : Program} {registry others : Registry}
  {base : Machine} {c d : Configuration}

/-- A character that is read by both is kept, and stands where it is looked for. -/
theorem Settled.place {name : Char} (settled : Settled keep program.toList base c d)
    (read : (program.toList.filter keep)[c.index]? = some name) :
    program.toList[d.index]? = some name ∧ keep name = true ∧
      program.toList.findIdxNth keep c.index = d.index := by
  have here : program.toList[d.index]? = some name := settled.read.trans read
  have kept : keep name = true := (List.mem_filter.mp (List.mem_of_getElem? read)).2
  refine ⟨here, kept, ?_⟩
  rw [← settled.index, findIdxNth_of_kept here kept]

/-- A comment is passed without any difference. -/
theorem Interspersed.exists_settled
    (ignores : Registry.Ignores keep program.toList registry others)
    (interspersed : Interspersed keep program.toList base c d) :
    ∃ n d', advance program others n d = .running d' ∧ Settled keep program.toList base c d' := by
  -- The characters of the comment become fewer with each of its steps.
  induction rest : program.toList.length - d.index generalizing d with
  | zero =>
    have ended : program.toList[d.index]? = none := List.getElem?_eq_none (by omega)
    exact ⟨0, d, rfl, interspersed, by
      rw [ended, ← interspersed.index, getElem?_filter_of_none ended]⟩
  | succ left ih =>
    have inside : d.index < program.toList.length := by omega
    have read : program.toList[d.index]? = some program.toList[d.index] :=
      List.getElem?_eq_getElem inside
    cases kept : keep program.toList[d.index] with
    | true =>
      exact ⟨0, d, rfl, interspersed, by
        rw [← interspersed.index, getElem?_filter_of_kept read kept, read]⟩
    | false =>
      have resolved := ignores.dropped _ (List.getElem_mem inside) kept
      have passes : Performs program.toList others d
          (.next (d.row _ .command (d.performed .done)) (d.performed .done)) :=
        .command _ .done read resolved
      have still : Interspersed keep program.toList base c (d.performed .done) :=
        ⟨(countPBefore_succ_of_dropped read kept).trans interspersed.index, interspersed.calls,
          { interspersed.machine with }⟩
      have fewer : program.toList.length - (d.index + 1) = left := by omega
      obtain ⟨n, d', run, settled⟩ := ih still fewer
      exact ⟨n + 1, d', by rwa [advance_succ_of_next passes], settled⟩

/-- The step of a run of the kept characters is one of the whole text. -/
theorem Settled.step (ignores : Registry.Ignores keep program.toList registry others)
    {row : Row} {after : Configuration} (settled : Settled keep program.toList base c d)
    (performs : Performs (program.toList.filter keep) registry c (.next row after)) :
    ∃ row' after', Performs program.toList others d (.next row' after') ∧
      Interspersed keep program.toList base after after' := by
  have place {name : Char} (read : (program.toList.filter keep)[c.index]? = some name) :=
    settled.place read
  obtain ⟨⟨index, calls, machine⟩, -⟩ := settled
  have counted {name : Char} (read : program.toList[d.index]? = some name)
      (kept : keep name = true) :
      program.toList.countPBefore keep (d.index + 1) = c.index + 1 := by
    rw [countPBefore_succ_of_kept read kept, index]
  have partner_eq (read : program.toList[d.index]? = some loopOpen) :
      partner program.toList d.index = (partner (program.toList.filter keep) c.index).map
        (program.toList.findIdxNth keep) := by
    rw [partner_eq_map_partner_filter ignores.keeps_open ignores.keeps_close read, index]
  cases performs with
  | command name routine read resolved =>
    obtain ⟨here, kept, moved⟩ := place read
    have resolved' : others.resolve name = some routine :=
      (ignores.kept name (List.mem_of_getElem? here) kept).trans resolved
    refine ⟨_, _, .command name routine here resolved', counted here kept, calls, ?_⟩
    have performed := machine.performAt c.index routine
    rwa [moved] at performed
  | enter close read found nonzero =>
    obtain ⟨here, kept, moved⟩ := place read
    have found' : partner program.toList d.index =
        some (program.toList.findIdxNth keep close) := by
      rw [partner_eq here, found, Option.map_some]
    have nonzero' : d.machine.get ≠ 0 := by rwa [machine.get_eq]
    refine ⟨_, _, .enter _ here found' nonzero', counted here kept, ?_, ?_⟩
    · rw [Configuration.entered, Configuration.entered, List.map_cons, index, calls]
    · exact (machine.record_left rfl).record_right rfl
  | skip close read found zero =>
    obtain ⟨here, kept, moved⟩ := place read
    have found' : partner program.toList d.index =
        some (program.toList.findIdxNth keep close) := by
      rw [partner_eq here, found, Option.map_some]
    have zero' : d.machine.get = 0 := by rwa [machine.get_eq]
    refine ⟨_, _, .skip _ here found' zero', ?_, calls, ?_⟩
    · obtain ⟨-, closed, -⟩ := (partner_eq_some_iff read).mp found
      rw [Configuration.skipped, Configuration.skipped,
        countPBefore_succ_of_kept (getElem?_findIdxNth closed) ignores.keeps_close,
        countPBefore_of_read closed]
    · exact (machine.record_left rfl).record_right rfl
  | back header outer read calls_eq =>
    obtain ⟨here, kept, moved⟩ := place read
    rw [calls_eq] at calls
    obtain ⟨header', outer', calls', rank, ranks⟩ := List.map_eq_cons_iff.mp calls
    exact ⟨_, _, .back header' outer' here calls', rank, ranks, machine⟩

/-- A run of the whole text gets to the other side of that step. -/
theorem Interspersed.step (ignores : Registry.Ignores keep program.toList registry others)
    {row : Row} {after : Configuration} (interspersed : Interspersed keep program.toList base c d)
    (performs : Performs (program.toList.filter keep) registry c (.next row after)) :
    ∃ n after', advance program others (n + 1) d = .running after' ∧
      Interspersed keep program.toList base after after' := by
  obtain ⟨n, d', passed, settled⟩ := interspersed.exists_settled ignores
  obtain ⟨row', after', follows, still⟩ := settled.step ignores performs
  exact ⟨n, after', by rw [advance_add passed, advance_succ_of_next follows, advance], still⟩

/-- Where a run of the kept characters ends, one of the whole text ends as well. -/
theorem Settled.halt (ignores : Registry.Ignores keep program.toList registry others)
    {result : Except ExecutionError Unit} (settled : Settled keep program.toList base c d)
    (performs : Performs (program.toList.filter keep) registry c (.halt result c)) :
    Performs program.toList others d
      (.halt (result.mapError (ExecutionError.relocate (program.toList.findIdxNth keep))) d) := by
  have place {name : Char} (read : (program.toList.filter keep)[c.index]? = some name) :=
    settled.place read
  cases performs with
  | finish ended => exact .finish (settled.read.trans ended)
  | unmatchedOpen read alone =>
    obtain ⟨here, -, moved⟩ := place read
    have alone' : partner program.toList d.index = none := by
      rw [partner_eq_map_partner_filter ignores.keeps_open ignores.keeps_close here,
        settled.index, alone, Option.map_none]
    rw [Except.mapError, ExecutionError.relocate, moved]
    exact .unmatchedOpen here alone'
  | unmatchedClose read empty =>
    obtain ⟨here, -, moved⟩ := place read
    have empty' : d.calls = [] := List.map_eq_nil_iff.mp (settled.calls.trans empty)
    rw [Except.mapError, ExecutionError.relocate, moved]
    exact .unmatchedClose here empty'
  | unknown name read unresolved ne_open ne_close =>
    obtain ⟨here, kept, moved⟩ := place read
    have unresolved' : others.resolve name = none :=
      (ignores.kept name (List.mem_of_getElem? here) kept).trans unresolved
    rw [Except.mapError, ExecutionError.relocate, moved]
    exact .unknown name here unresolved' ne_open ne_close

/-- A run of the whole text comes to that end. -/
theorem Interspersed.halt (ignores : Registry.Ignores keep program.toList registry others)
    {result : Except ExecutionError Unit} (interspersed : Interspersed keep program.toList base c d)
    (performs : Performs (program.toList.filter keep) registry c (.halt result c)) :
    ∃ n d', advance program others n d = .running d' ∧
      Interspersed keep program.toList base c d' ∧
      Performs program.toList others d' (.halt
        (result.mapError (ExecutionError.relocate (program.toList.findIdxNth keep))) d') := by
  obtain ⟨n, d', passed, settled⟩ := interspersed.exists_settled ignores
  exact ⟨n, d', passed, settled.toInterspersed, settled.halt ignores performs⟩

end Execution

namespace Interpreter

open Execution Nesting

/-- An interpreter that lets every comment of a text do nothing. -/
def ignoring (i : Interpreter) (text : String) : Except RegistryError Unit × Interpreter :=
  addAll ((i.registry.comments text).map fun c => (c, .done)) i

/-- The comments of a text can be registered, and nothing else of it is touched. -/
theorem exists_ignoring (i : Interpreter) (text : String) :
    ∃ j, i.ignoring text = (.ok (), j) ∧
      Registry.Ignores (isInstruction i.registry.customNames) text.toList i.registry
        j.registry := by
  have free : ∀ c ∈ i.registry.comments text, Registry.Free c := by
    intro c member
    obtain ⟨-, ne_open, ne_close, unknown⟩ := Registry.mem_comments_iff.mp member
    exact ⟨ne_open, ne_close, (Bool.or_eq_false_iff.mp unknown).1⟩
  have absent : ∀ c ∈ i.registry.comments text, ¬ i.registry.isCustom c := by
    intro c member
    obtain ⟨-, -, -, unknown⟩ := Registry.mem_comments_iff.mp member
    rw [Bool.not_eq_true]
    exact (Bool.or_eq_false_iff.mp unknown).2
  obtain ⟨j, all, resolves⟩ :=
    addAll_of_free .done (i.registry.comments text) i (List.nodup_dedup _) free absent
  have comment_iff : ∀ c ∈ text.toList, c ∈ i.registry.comments text ↔
      isInstruction i.registry.customNames c = false := by
    intro c member
    rw [Registry.mem_comments_iff, Registry.isInstruction_eq_false_iff, and_iff_right member]
  refine ⟨j, all, ?_, ?_, ?_, ?_⟩
  · exact (i.registry.isInstruction_iff loopOpen).mpr (.inl rfl)
  · exact (i.registry.isInstruction_iff loopClose).mpr (.inr (.inl rfl))
  · intro c member kept
    have no_comment : c ∉ i.registry.comments text := by
      rw [comment_iff c member, kept]
      exact Bool.noConfusion
    rw [resolves c, if_neg no_comment]
  · intro c member dropped
    rw [resolves c, if_pos ((comment_iff c member).mpr dropped)]

/-- An execution of a text whose comments do nothing keeps up with that of what is kept of
it. -/
theorem outruns_of_filtered {keep : Char → Bool} {r others : Registry} {text code : String}
    (m : Machine) (filtered : code.toList = text.toList.filter keep)
    (ignores : Registry.Ignores keep text.toList r others) :
    Outruns (Interspersed keep text.toList m)
      (ExecutionError.relocate (text.toList.findIdxNth keep)) ⟨m, r⟩ code ⟨m, others⟩ text := by
  refine ⟨?_, ?_, ?_⟩
  · exact ⟨List.countPBefore_zero, rfl,
      ((Machine.Relocated.refl _ m).record_left rfl).record_right rfl⟩
  · intro c d row after interspersed performs
    rw [filtered] at performs
    exact Interspersed.step ignores interspersed performs
  · intro c d result interspersed performs
    rw [filtered] at performs
    exact Interspersed.halt ignores interspersed performs

/-- What is left of a text without its comments never meets an unknown command. With the
comments registered as commands that do nothing, the whole text is executed to the same
end from any machine: with the same tape, numbers, input and memory, and with the result
and the diagnostics at the positions that the instructions have in the whole text. -/
theorem execute_instructionsOnly (i : Interpreter) (text : String) :
    let code := instructionsOnly text i.registry.customNames
    let place := text.toList.findIdxNth (isInstruction i.registry.customNames)
    (∀ m name p after, ¬ Executes ⟨m, i.registry⟩ code (.error (.unknownCommand name p)) after) ∧
    ∃ j, i.ignoring text = (.ok (), j) ∧ ∀ m,
      (Terminates ⟨m, j.registry⟩ text ↔ Terminates ⟨m, i.registry⟩ code) ∧
      ∀ result after result' after', Executes ⟨m, i.registry⟩ code result after →
        Executes ⟨m, j.registry⟩ text result' after' →
        result' = result.mapError (ExecutionError.relocate place) ∧
          Machine.Relocated place m after.machine after'.machine := by
  intro code place
  have filtered : code.toList = text.toList.filter (isInstruction i.registry.customNames) :=
    String.toList_ofList
  refine ⟨?_, ?_⟩
  · intro m name p after executed
    obtain ⟨read, ne_open, ne_close, not_builtin, not_custom, -⟩ := attests_of_executes executed
    have kept : isInstruction i.registry.customNames name := by
      rw [filtered] at read
      exact (List.mem_filter.mp (List.mem_of_getElem? read)).2
    rw [Registry.isInstruction_iff, Registry.contains, not_builtin, not_custom] at kept
    rcases kept with opened | closed | known
    · exact ne_open opened
    · exact ne_close closed
    · cases known
  · obtain ⟨j, all, ignores⟩ := exists_ignoring i text
    refine ⟨j, all, ?_⟩
    intro m
    have outruns := outruns_of_filtered m filtered ignores
    refine ⟨outruns.terminates_iff, ?_⟩
    intro result after result' after' executed whole
    obtain ⟨c, d, interspersed, rfl, ends⟩ := outruns.exists_executes executed
    obtain ⟨rfl, rfl⟩ := ends.unique whole
    exact ⟨rfl, relocated_closing interspersed.machine⟩

end Interpreter

end RingTape
