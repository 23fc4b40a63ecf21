/-
# Lines stay with their commands

The input commands that a plain program executes are numbered in the order of execution,
over loops and over several executions. Each takes the segment of the input with its own
number. A segment without a number on it costs the command that takes it, which reports the
problem at its own position and leaves the tape alone, and costs nobody else anything. What
is reported in all is known from the segments and from the positions of the commands.

It does not matter in what portions a reader gets the bytes. Its runs are in step with
those that have the whole stream.
-/

import RingTape.Proofs.Channel.Segments
import RingTape.Proofs.Execution.Parallel
import RingTape.Proofs.Execution.TraceTable
import RingTape.Proofs.Tape.Ring

namespace RingTape

open Source (segments numberOn behind buffered)

/-! ## What one command takes -/

namespace Primitive

theorem symbol_eq_input_iff (p : Primitive) :
    p.symbol = Builtin.input.symbol ↔ p = .builtin .input := by
  constructor
  · intro spelled
    have same := congrArg ofSymbol? spelled
    rw [ofSymbol?_symbol] at same
    exact Option.some.inj same
  · rintro rfl
    rfl

/-- Other commands than input leave the source alone. -/
theorem onSource_of_ne {p : Primitive} (other : p ≠ .builtin .input) (source : Source) :
    p.onSource source = source := by
  rcases p with (_ | _ | _ | _ | _ | _) | _ <;> first | rfl | exact absurd rfl other

/-- They report nothing. -/
theorem diagnostics_effects_of_ne {p : Primitive} (other : p ≠ .builtin .input)
    (position : Option Nat) (reading : Reading) (t : Tape) :
    (p.effects position reading t).filterMap Effect.diagnostic? = [] := by
  rcases p with (_ | _ | _ | _ | _ | _) | _ <;> first | rfl | exact absurd rfl other

end Primitive

namespace Tape

/-- From `t` to `t'` a number was stored: it is read back from the cell at the pointer, or the
remainder of it from a byte cell, and all else on the tape is as it was. -/
structure Stored (t : Tape) (value : Int64) (t' : Tape) : Prop where
  size : t'.size = t.size
  pointer : t'.pointer = t.pointer
  mode : t'.mode = t.mode
  cell : ∃ held : Int64, t'.cells[t.pointer]? = some held ∧
    held.toInt = match t.mode with
      | .unbounded => value.toInt
      | .byte => value.toInt % 256
  others : ∀ index, index ≠ t.pointer → t'.cells[index]? = t.cells[index]?

theorem stored_set (t : Tape) (value : Int64) : t.Stored value (t.set value) where
  size := t.size_set value
  pointer := rfl
  mode := rfl
  cell := by
    refine ⟨t.mode.normalize value, ?_, ?_⟩
    · rw [getElem?_cells_set, if_pos rfl]
    · cases t.mode with
      | unbounded => rfl
      | byte => exact CellMode.toInt_normalize_byte value
  others index other := by rw [getElem?_cells_set, if_neg other]

/-- The number is the one that is got from the tape. -/
theorem Stored.toInt_get {t t' : Tape} {value : Int64} (stored : t.Stored value t') :
    t'.get.toInt = match t.mode with
      | .unbounded => value.toInt
      | .byte => value.toInt % 256 := by
  obtain ⟨held, kept, shows⟩ := stored.cell
  rw [← stored.pointer, getElem?_pointer] at kept
  exact Option.some.inj kept ▸ shows

/-- The tape when a number was taken. A problem leaves it alone. -/
def Taking (t : Tape) : Except InputProblem Int64 → Tape → Prop
  | .ok value, t' => t.Stored value t'
  | .error _, t' => t' = t

end Tape

/-- What a command at a position reports of what it took. -/
def complaint (position : Nat) : Except InputProblem Int64 → Option Diagnostic
  | .ok _ => none
  | .error problem => some ⟨some position, problem⟩

namespace Execution

/-- An input command stands at the position. -/
def isInputAt (text : List Char) (position : Nat) : Bool :=
  text[position]? = some Builtin.input.symbol

/-- The step from `c` to `after` is one of an input command that takes a number or a
problem. The number is stored; the problem is reported once, at the position of the command,
and leaves the tape as it was. Either way the run goes on behind the command. -/
structure Takes (taken : Except InputProblem Int64) (c after : Configuration) : Prop where
  index : after.index = c.index + 1
  calls : after.calls = c.calls
  tape : c.machine.tape.Taking taken after.machine.tape
  observed : c.machine.Observed ((complaint c.index taken).toList.map .reported) after.machine

/-- The input command takes what the next reading says, and the source is one reading
further. -/
theorem takes_performed_input (c : Configuration) :
    Takes c.machine.source.read.1.number c (c.performed Builtin.input.routine) ∧
      (c.performed Builtin.input.routine).machine.source = c.machine.source.read.2 := by
  rw [Configuration.performed, Machine.performAt_input]
  cases c.machine.source.read.1.number with
  | ok value =>
    exact ⟨⟨rfl, rfl, c.machine.tape.stored_set value, { Machine.Observed.refl c.machine with }⟩, rfl⟩
  | error problem => exact ⟨⟨rfl, rfl, rfl, { c.machine.observed_told _ with }⟩, rfl⟩

end Execution

open Execution

/-! ## What is taken in all -/

/-- What input commands at these positions report, each taking the segment with its own
number. -/
def complaints (bytes : List UInt8) (inputs : List Nat) : List Diagnostic :=
  inputs.zipIdx.filterMap fun (position, number) =>
    complaint position (numberOn (segments bytes)[number]?)

theorem complaints_concat (bytes : List UInt8) (inputs : List Nat) (position : Nat) :
    complaints bytes (inputs ++ [position]) = complaints bytes inputs ++
      (complaint position (numberOn (segments bytes)[inputs.length]?)).toList := by
  rw [complaints, List.zipIdx_append, List.filterMap_append, Nat.zero_add]
  cases said : complaint position (numberOn (segments bytes)[inputs.length]?) <;>
    simp [said, complaints]

/-- Since `base` the input commands at these positions, and no others, have taken one
segment each, and nothing was reported but by them. -/
structure Aligned (bytes : List UInt8) (base : Machine) (inputs : List Nat) (m : Machine) :
    Prop where
  source : m.source = behind bytes inputs.length
  diagnostics : ∃ effects, base.Observed effects m ∧
    effects.filterMap Effect.diagnostic? = complaints bytes inputs

namespace Aligned

variable {bytes : List UInt8} {base m m' : Machine} {inputs : List Nat}

theorem start (input : m.source = .stream bytes) : Aligned bytes m [] m :=
  ⟨input.trans (Source.behind_zero bytes).symm, [], .refl m, rfl⟩

/-- A hook has received just that. -/
theorem hook_eq (aligned : Aligned bytes base inputs m) :
    m.hook = base.hook.map ((complaints bytes inputs).reverse ++ ·) := by
  obtain ⟨effects, told, reported⟩ := aligned.diagnostics
  rw [told.hook, reported]

/-- Where nothing is read and nothing reported, no segment is taken. -/
theorem frame (aligned : Aligned bytes base inputs m) {since : List Effect}
    (observed : m.Observed since m') (silent : since.filterMap Effect.diagnostic? = [])
    (source : m'.source = m.source) : Aligned bytes base inputs m' := by
  obtain ⟨effects, told, reported⟩ := aligned.diagnostics
  refine ⟨source.trans aligned.source, effects ++ since, told.trans observed, ?_⟩
  rw [List.filterMap_append, reported, silent, List.append_nil]

theorem record (aligned : Aligned bytes base inputs m) (event : Event) :
    Aligned bytes base inputs (m.record event) :=
  aligned.frame (Machine.observed_record m event) rfl rfl

variable {text : List Char} {registry : Registry} {c : Configuration}

/-- An input command takes the segment with its number, and no more. -/
theorem input (aligned : Aligned bytes base inputs c.machine) :
    Takes (numberOn (segments bytes)[inputs.length]?) c (c.performed Builtin.input.routine) ∧
      Aligned bytes base (inputs ++ [c.index]) (c.performed Builtin.input.routine).machine := by
  obtain ⟨takes, rest⟩ := takes_performed_input c
  rw [aligned.source, Source.number_read_behind] at takes
  rw [aligned.source, Source.rest_read_behind] at rest
  obtain ⟨effects, told, reported⟩ := aligned.diagnostics
  refine ⟨takes, by rw [rest, List.length_append]; rfl, _, told.trans takes.observed, ?_⟩
  rw [List.filterMap_append, reported, complaints_concat]
  cases complaint c.index (numberOn (segments bytes)[inputs.length]?) <;> rfl

/-- A step keeps lines and commands aligned. It adds its position if it is the step of an
input command. -/
theorem step (aligned : Aligned bytes base inputs c.machine)
    (understood : registry.Understands text) {row : Row} {after : Configuration}
    (performs : Performs text registry c (.next row after)) :
    Aligned bytes base (inputs ++ [c.index].filter (isInputAt text)) after.machine := by
  have other {name : Char} (read : text[c.index]? = some name) (ne : name ≠ Builtin.input.symbol) :
      inputs ++ [c.index].filter (isInputAt text) = inputs := by
    rw [List.filter_singleton, isInputAt, read]
    simp [ne]
  cases performs with
  | command name routine read resolved =>
    obtain ⟨p, rfl, rfl⟩ := understood.exists_primitive (List.mem_of_getElem? read) resolved
    rcases eq_or_ne p (.builtin .input) with rfl | ne
    · have here : isInputAt text c.index = true := decide_eq_true read
      rw [List.filter_singleton, here]
      exact aligned.input.2
    · rw [other read (mt p.symbol_eq_input_iff.mp ne), Configuration.performed,
        Machine.performAt_primitive, Primitive.onSource_of_ne ne]
      exact aligned.frame { c.machine.observed_told _ with }
        (Primitive.diagnostics_effects_of_ne ne _ _ _) rfl
  | enter close read =>
    rw [other read (by decide)]
    exact aligned.record _
  | skip close read =>
    rw [other read (by decide)]
    exact aligned.record _
  | back header outer read =>
    rw [other read (by decide)]
    exact aligned

end Aligned

/-! ## What portions the bytes come in -/

namespace Machine

/-- Machines that differ in their sources only, and these will give the same answers. -/
def ReadsAlike (m m' : Machine) : Prop :=
  ∃ source, m.source.AnswersAlike source ∧ m' = { m with source }

theorem ReadsAlike.performAt {m m' : Machine} (alike : m.ReadsAlike m') (p : Primitive)
    (position : Nat) :
    (m.performAt position p.routine).ReadsAlike (m'.performAt position p.routine) := by
  obtain ⟨source, answers, rfl⟩ := alike
  rw [performAt_primitive, performAt_primitive, answers.reading]
  refine ⟨p.onSource source, ?_, rfl⟩
  rcases eq_or_ne p (.builtin .input) with rfl | ne
  · exact answers.rest
  · simpa only [Primitive.onSource_of_ne ne] using answers

/-- The source does not show in the test of a loop. -/
theorem masks_readsAlike : Masks ReadsAlike where
  zero := by
    rintro m _ ⟨source, -, rfl⟩
    rfl
  record := by
    rintro m _ event - ⟨source, answers, rfl⟩
    exact ⟨source, answers, rfl⟩

end Machine

namespace Interpreter

variable {i j : Interpreter} {code : String}

/-- The positions of the input commands among the first `n` instructions of an execution, in
the order in which they are executed. -/
def inputs (i : Interpreter) (code : String) (n : Nat) : List Nat :=
  ((List.range n).map fun k => (i.stateAfter code k).index).filter (isInputAt code.toList)

theorem inputs_succ (i : Interpreter) (code : String) (n : Nat) :
    i.inputs code (n + 1) =
      i.inputs code n ++ [(i.stateAfter code n).index].filter (isInputAt code.toList) := by
  rw [inputs, List.range_succ, List.map_append, List.filter_append]
  rfl

/-- The next state is one step further, or the execution has ended where it was. -/
theorem stateAfter_succ (i : Interpreter) (code : String) (n : Nat) :
    (∃ row, Performs code.toList i.registry (i.stateAfter code n)
      (.next row (i.stateAfter code (n + 1)))) ∨
    ∃ result, Performs code.toList i.registry (i.stateAfter code n)
        (.halt result (i.stateAfter code n)) ∧
      i.stateAfter code (n + 1) = i.stateAfter code n := by
  cases run : advance (Program.ofString code) i.registry n (i.initial code) with
  | running c =>
    have here : i.stateAfter code n = c := stateAfter_eq run
    obtain ⟨outcome, performs⟩ := exists_performs (Program.ofString code).toList i.registry c
    cases outcome with
    | next row after =>
      have reached : i.Reaches code (n + 1) after := by
        rw [Reaches, advance_add run, advance_succ_of_next performs, advance]
      rw [here, stateAfter_eq reached]
      exact .inl ⟨row, performs⟩
    | halt result final =>
      obtain rfl := performs.final_eq
      have still : i.stateAfter code (n + 1) = final := by
        rw [stateAfter, halted_of_reaches run performs, Progress.state]
      rw [here, still]
      exact .inr ⟨result, performs, rfl⟩
  | halted result final =>
    have here : i.stateAfter code n = final := by rw [stateAfter, run, Progress.state]
    have still : i.stateAfter code (n + 1) = final := by
      rw [stateAfter, advance_add_of_halted run, Progress.state]
    obtain ⟨k, -, -, last⟩ := advance_eq_halted_iff.mp run
    rw [here, still]
    exact .inr ⟨result, last, rfl⟩

/-- An execution that ends leaves the machine of its last state, in which its end is noted. -/
theorem eq_of_execute {fuel : Nat} {result : Except ExecutionError Unit} {after : Interpreter}
    (executed : i.execute fuel code = some (result, after)) :
    let last := i.stateAfter code fuel
    after = ⟨last.machine.record (closing last.steps result), i.registry⟩ := by
  rw [execute_eq] at executed
  intro last
  cases run : advance (Program.ofString code) i.registry fuel (i.initial code) with
  | running c =>
    rw [run] at executed
    cases executed
  | halted result' final =>
    have here : last = final := congrArg Progress.state run
    rw [run] at executed
    cases executed
    rw [here]

/-- An input command that a run comes to is performed, and counted. -/
theorem reaches_input {n : Nat} {c : Configuration} (reached : i.Reaches code n c)
    (here : isInputAt code.toList c.index) :
    i.Reaches code (n + 1) (c.performed Builtin.input.routine) ∧
      i.inputs code (n + 1) = i.inputs code n ++ [c.index] := by
  have read : (Program.ofString code).toList[c.index]? = some Builtin.input.symbol :=
    of_decide_eq_true here
  have performs := Performs.command (c := c) _ _ read (i.registry.resolve_symbol .input)
  constructor
  · rw [Reaches, advance_add reached, advance_succ_of_next performs, advance]
  · rw [inputs_succ, stateAfter_eq reached, List.filter_singleton, here]
    rfl

/-- No execution ends at an input command. -/
theorem not_isInputAt_of_halt {text : List Char} {registry : Registry} {c : Configuration}
    {result : Except ExecutionError Unit}
    (performs : Performs text registry c (.halt result c)) : isInputAt text c.index = false := by
  cases performs with
  | finish ended => simp [isInputAt, ended]
  | unmatchedOpen read alone =>
    rw [isInputAt, read]
    decide
  | unmatchedClose read empty =>
    rw [isInputAt, read]
    decide
  | unknown name read unresolved ne_open ne_close =>
    refine decide_eq_false fun here => ?_
    obtain rfl := Option.some.inj (read.symm.trans here)
    rw [Registry.resolve_symbol] at unresolved
    cases unresolved

/-- A run keeps lines and commands aligned. -/
theorem aligned_stateAfter {bytes : List UInt8} {base : Machine} {earlier : List Nat}
    (understood : i.registry.Understands code.toList)
    (aligned : Aligned bytes base earlier i.machine) (n : Nat) :
    Aligned bytes base (earlier ++ i.inputs code n) (i.stateAfter code n).machine := by
  induction n with
  | zero =>
    have begun : Aligned bytes base earlier (i.initial code).machine := aligned.record _
    exact (List.append_nil earlier).symm ▸ begun
  | succ n ih =>
    rw [inputs_succ, ← List.append_assoc]
    rcases stateAfter_succ i code n with ⟨row, performs⟩ | ⟨result, performs, still⟩
    · exact ih.step understood performs
    · rw [still, List.filter_singleton, not_isInputAt_of_halt performs]
      exact (List.append_nil _).symm ▸ ih

/-- So does an execution that ends. -/
theorem aligned_of_execute {bytes : List UInt8} {base : Machine} {earlier : List Nat}
    (understood : i.registry.Understands code.toList)
    (aligned : Aligned bytes base earlier i.machine) {fuel : Nat}
    {result : Except ExecutionError Unit} {after : Interpreter}
    (executed : i.execute fuel code = some (result, after)) :
    Aligned bytes base (earlier ++ i.inputs code fuel) after.machine := by
  rw [eq_of_execute executed]
  exact (aligned_stateAfter understood aligned fuel).record _

/-- Plain programs were executed one after the other from `i` on, with input commands
executed at these positions. -/
inductive Continues (i : Interpreter) : List Nat → Interpreter → Prop
  | start : Continues i [] i
  | execute {earlier : List Nat} {j after : Interpreter} {code : String} {fuel : Nat}
      {result : Except ExecutionError Unit} (before : Continues i earlier j)
      (understood : j.registry.Understands code.toList)
      (executed : j.execute fuel code = some (result, after)) :
      Continues i (earlier ++ j.inputs code fuel) after

/-- Over several executions the numbers of the segments go on. -/
theorem Continues.aligned {bytes : List UInt8} {earlier : List Nat}
    (continues : i.Continues earlier j) (input : i.machine.source = .stream bytes) :
    Aligned bytes i.machine earlier j.machine := by
  induction continues with
  | start => exact .start input
  | execute before understood executed ih => exact aligned_of_execute understood ih executed

/-! ## Runs from portions -/

variable {i' j' : Interpreter}

/-- Runs of one program are in step if the machines read alike where they begin. -/
theorem inStep_of_readsAlike (understood : i.registry.Understands code.toList)
    (registry : i'.registry = i.registry) (alike : i.machine.ReadsAlike i'.machine) (n : Nat) :
    i.InStepAfter Machine.ReadsAlike i' code n := by
  have started : (i.initial code).machine.ReadsAlike (i'.initial code).machine := by
    obtain ⟨source, answers, same⟩ := alike
    refine ⟨source, answers, ?_⟩
    rw [initial, same]
    rfl
  apply inStep_of_primitives Machine.masks_readsAlike understood registry started
  intro p position m m' alike
  exact alike.performAt p position

/-- Runs in step execute input commands at the same positions. -/
theorem inputs_eq_of_inStep {related : Machine → Machine → Prop}
    (in_step : ∀ n, i.InStepAfter related i' code n) (n : Nat) :
    i'.inputs code n = i.inputs code n := by
  have same_index (k : Nat) : (i'.stateAfter code k).index = (i.stateAfter code k).index :=
    (in_step k).index_eq
  simp only [inputs, same_index]

/-- Machines that read alike still do so when the same programs were executed. -/
theorem Continues.exists_readsAlike {earlier : List Nat} (continues : i.Continues earlier j)
    (registry : i'.registry = i.registry) (alike : i.machine.ReadsAlike i'.machine) :
    ∃ j', i'.Continues earlier j' ∧ j'.registry = j.registry ∧
      j.machine.ReadsAlike j'.machine := by
  induction continues with
  | start => exact ⟨i', .start, registry, alike⟩
  | execute before understood executed ih =>
    obtain ⟨j', before', registry, alike⟩ := ih
    have in_step := inStep_of_readsAlike understood registry alike
    rcases execute_of_inStep Machine.masks_readsAlike (in_step _) with
      ⟨running, -⟩ | ⟨_, _, after', executed', executes, same, same', related⟩
    · rw [running] at executed
      cases executed
    · rw [executed'] at executed
      cases executed
      rw [← inputs_eq_of_inStep in_step]
      exact ⟨after', .execute before' (registry.symm ▸ understood) executes,
        same'.trans (registry.trans same.symm), related⟩

/-- Every input command that a plain program executes takes the segment of the input with
its own number, counted over all executions since the input was given. What it reports and
what it leaves to the later ones is settled by that, in every state of a run and where it
ends: the source is behind as many segments as commands were executed, and nothing was
reported but what they had to. The portions that a reader gets the bytes in change nothing
but the reader. -/
theorem lines_aligned {bytes : List UInt8} {earlier : List Nat}
    (input : i.machine.source = .stream bytes) (continues : i.Continues earlier j)
    (understood : j.registry.Understands code.toList) :
    (∀ n, Aligned bytes i.machine (earlier ++ j.inputs code n) (j.stateAfter code n).machine) ∧
    (∀ n c, j.Reaches code n c → isInputAt code.toList c.index →
      ∃ after, j.Reaches code (n + 1) after ∧
        j.inputs code (n + 1) = j.inputs code n ++ [c.index] ∧
        Takes (numberOn (segments bytes)[(earlier ++ j.inputs code n).length]?) c after) ∧
    (∀ fuel result after, j.execute fuel code = some (result, after) →
      Aligned bytes i.machine (earlier ++ j.inputs code fuel) after.machine) ∧
    ∀ portions, portions.flatten = bytes →
      ∃ j', (i.setSource (buffered portions)).Continues earlier j' ∧
        ∀ n, j.InStepAfter Machine.ReadsAlike j' code n := by
  have aligned := continues.aligned input
  refine ⟨aligned_stateAfter understood aligned, fun n c reached here => ?_,
    fun fuel result after executed => aligned_of_execute understood aligned executed,
    fun portions whole => ?_⟩
  · have counted := aligned_stateAfter understood aligned n
    rw [stateAfter_eq reached] at counted
    obtain ⟨next, inputs⟩ := reaches_input reached here
    exact ⟨_, next, inputs, counted.input.1⟩
  · have alike : i.machine.ReadsAlike (i.setSource (buffered portions)).machine := by
      refine ⟨buffered portions, ?_, rfl⟩
      rw [input, ← whole]
      exact Source.answersAlike_buffered portions
    have registry : (i.setSource (buffered portions)).registry = i.registry := rfl
    obtain ⟨j', continues', registry, still⟩ := continues.exists_readsAlike registry alike
    exact ⟨j', continues', inStep_of_readsAlike understood registry still⟩

/-- A line that is no number and one that is no text, taken by one program, and a line
without an ending and none at all, taken by the next. Its number is too large for the byte cell,
which keeps the remainder, and a hook hears of the others. -/
theorem lines_aligned_over_two_programs :
    let bytes : List UInt8 := [0x78, 0x0A, 0xFF, 0x0A, 0x33, 0x30, 0x30]
    let i := (ofTape (.blank 2 .byte (by decide)) .collecting (.stream bytes)).addStock.2.setHook
    ∃ j, i.Continues [0, 2] j ∧ j.registry.Understands ",,".toList ∧
      (∃ after, j.Reaches ",," 1 after ∧ after.machine.tape.pointer = 1 ∧
        after.machine.tape.cells[1]? = some (44 : Int64)) ∧
      (j.stateAfter ",," 2).machine.hook =
        some [⟨some 1, .exhausted⟩, ⟨some 2, .unreadable "stream did not contain valid UTF-8"⟩,
          ⟨some 0, .notANumber "x"⟩] := by
  intro bytes i
  have ends : (i.execute 4 ",>,").isSome := by decide
  let ended := (i.execute 4 ",>,").get ends
  have executed : i.execute 4 ",>," = some (ended.1, ended.2) := (Option.some_get ends).symm
  have understood : i.registry.Understands ",>,".toList :=
    Registry.understands_of_stock (fun s => by cases s <;> rfl) rfl
  have understood' : ended.2.registry.Understands ",,".toList :=
    Registry.understands_of_stock (fun s => by cases s <;> rfl) rfl
  have continues : i.Continues (i.inputs ",>," 4) ended.2 := .execute .start understood executed
  have first : i.inputs ",>," 4 = [0, 2] := by decide
  have second : ended.2.inputs ",," 2 = [0, 1] := rfl
  obtain ⟨aligned, each, -⟩ := lines_aligned rfl continues understood'
  have heard := (aligned 2).hook_eq
  obtain ⟨after, reached, -, takes⟩ := each 0 (ended.2.initial ",,") rfl rfl
  have third : numberOn (segments bytes)[2]? = .ok 300 := by decide +kernel
  have none_yet : ended.2.inputs ",," 0 = [] := rfl
  rw [first, none_yet, List.append_nil, List.length_cons, List.length_singleton, third] at takes
  have stored : ended.2.machine.tape.Stored 300 after.machine.tape := takes.tape
  have moved : ended.2.machine.tape.pointer = 1 := rfl
  obtain ⟨held, kept, shows⟩ := stored.cell
  rw [moved] at kept
  have remainder : held = 44 := Int64.toInt_inj.mp shows
  rw [second, first] at heard
  rw [first] at continues
  exact ⟨ended.2, continues, understood', ⟨after, reached, stored.pointer.trans moved,
    remainder ▸ kept⟩, heard.trans (by decide +kernel)⟩

end Interpreter

end RingTape
