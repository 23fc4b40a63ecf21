/-
# Numbers go round

What a text sink wrote for numbers can be given to another interpreter as its input. Line
after line its input commands then take these numbers, the extremes of 64 bits included, and
behind the last line they find the input exhausted. They are not the only ones who read: a
custom command may ask for a line of its own, and the number on it is lost to the input
commands. So what an input command takes is known from all the lines that were read before
it, and the number of its own kind among them is only a lower bound, unless no custom
command reads.

A program that does nothing but take numbers and put them out writes its input down again.
-/

import RingTape.Proofs.Channel.Numerals
import RingTape.Proofs.Execution.Alignment
import RingTape.Proofs.Execution.Concatenation

namespace RingTape

open Execution

namespace Registry

/-- No custom command asks for input. -/
def LeavesInput (r : Registry) : Prop :=
  ∀ name routine, r.customRoutine? name = some routine →
    ∀ m : Machine, (m.perform routine).source = m.source

/-- Then the input command is the only one that does. -/
theorem LeavesInput.source_eq {r : Registry} (leaves : r.LeavesInput) {name : Char}
    {routine : Routine} (resolved : r.resolve name = some routine)
    (ne : name ≠ Builtin.input.symbol) (m : Machine) : (m.perform routine).source = m.source := by
  rw [resolve] at resolved
  cases spelled : Builtin.ofSymbol? name with
  | none =>
    rw [spelled] at resolved
    exact leaves name routine resolved m
  | some b =>
    rw [spelled] at resolved
    obtain rfl := Option.some.inj resolved
    cases b with
    | input => exact absurd (Builtin.eq_symbol_of_ofSymbol? spelled) ne
    | output => exact (m.frame_emit m.get).2.1
    | _ => rfl

end Registry

variable {values : List Int64}

/-- The input is what was written for the values behind the first `lines` of them. Not
fewer lines than `count` were read, and just so many if no custom command reads. -/
structure HasRead (values : List Int64) (r : Registry) (count lines : Nat) (m : Machine) :
    Prop where
  source : m.source = .stream (numerals (values.drop lines))
  le : count ≤ lines
  eq : r.LeavesInput → lines = count

/-- The step from `c` to `after` takes the next value, if there is one, with no diagnostic,
and the cell holds what its mode makes of the value: the value itself, or its remainder by
256. If there is none the input is reported to be exhausted. -/
structure ReadsBack (next : Option Int64) (c after : Configuration) : Prop where
  takes : Takes (nextNumber next) c after
  unbounded : ∀ value, next = some value → c.machine.tape.mode = .unbounded →
    after.machine.get = value
  byte : ∀ value, next = some value → c.machine.tape.mode = .byte →
    after.machine.get.toInt = value.toInt % 256

/-- What is taken is stored as the mode stores it. -/
theorem Execution.Takes.readsBack {next : Option Int64} {c after : Configuration}
    (takes : Takes (nextNumber next) c after) : ReadsBack next c after := by
  have stored (value : Int64) (found : next = some value) :
      c.machine.tape.Stored value after.machine.tape := by
    obtain rfl := found
    exact takes.tape
  refine ⟨takes, ?_, ?_⟩
  · intro value found mode
    rw [Machine.get, ← Int64.toInt_inj, (stored value found).toInt_get, mode]
  · intro value found mode
    rw [Machine.get, (stored value found).toInt_get, mode]

/-! ## Lines that are read -/

/-- One reading leaves the text of the values behind the next. -/
theorem Source.rest_read_drop (values : List Int64) (lines : Nat) :
    (stream (numerals (values.drop lines))).read.2 =
      .stream (numerals (values.drop (lines + 1))) := by
  rw [rest_read_numerals, List.tail_drop]

/-- A routine reads some lines or none. -/
theorem Machine.source_perform (routine : Routine) {m : Machine} {lines : Nat}
    (input : m.source = .stream (numerals (values.drop lines))) :
    ∃ more ≥ lines, (m.perform routine).source = .stream (numerals (values.drop more)) := by
  induction routine generalizing m lines with
  | done => exact ⟨lines, le_rfl, input⟩
  | forward next ih => exact ih (m := m.forward) input
  | back next ih => exact ih (m := m.back) input
  | get next ih => exact ih m.get input
  | inspect next ih => exact ih m.tape input
  | set value next ih => exact ih (m := m.set value) input
  | reset next ih => exact ih (m := m.reset) input
  | emit value next ih => exact ih ((m.frame_emit value).2.1.trans input)
  | readLine next ih =>
    have rest : m.source.read.2 = .stream (numerals (values.drop (lines + 1))) := by
      rw [input, Source.rest_read_drop]
    obtain ⟨more, enough, left⟩ := ih m.source.read.1 (m := m.readLine.2) rest
    exact ⟨more, Nat.le_of_succ_le enough, left⟩
  | report problem next ih => exact ih (m := m.report problem) input
  | retrieve slot next ih => exact ih (m.retrieve slot) input
  | keep slot value next ih => exact ih (m := m.keep slot value) input

namespace HasRead

variable {text : List Char} {registry : Registry} {count lines : Nat} {m : Machine}
  {c : Configuration}

/-- The input command takes the value of the next line. -/
theorem input (read : HasRead values registry count lines c.machine) :
    ReadsBack values[lines]? c (c.performed Builtin.input.routine) ∧
      HasRead values registry (count + 1) (lines + 1)
        (c.performed Builtin.input.routine).machine := by
  obtain ⟨takes, rest⟩ := takes_performed_input c
  rw [read.source, Source.number_read_numerals, List.head?_drop] at takes
  rw [read.source, Source.rest_read_drop] at rest
  exact ⟨takes.readsBack, rest, Nat.succ_le_succ read.le,
    fun leaves => congrArg (· + 1) (read.eq leaves)⟩

/-- A step reads on. Its line counts as one of an input command if it is the step of one. -/
theorem step (read : HasRead values registry count lines c.machine) {row : Row}
    {after : Configuration} (performs : Performs text registry c (.next row after)) :
    ∃ lines', HasRead values registry (count + ([c.index].filter (isInputAt text)).length) lines'
      after.machine := by
  have other {name : Char} (here : text[c.index]? = some name)
      (ne : name ≠ Builtin.input.symbol) : ([c.index].filter (isInputAt text)).length = 0 := by
    rw [List.filter_singleton, isInputAt, here]
    simp [ne]
  cases performs with
  | command name routine here resolved =>
    by_cases spelled : name = Builtin.input.symbol
    · subst spelled
      obtain rfl := Option.some.inj ((registry.resolve_symbol .input).symm.trans resolved)
      have counted : isInputAt text c.index = true := decide_eq_true here
      rw [List.filter_singleton, counted]
      exact ⟨lines + 1, read.input.2⟩
    · rw [other here spelled]
      by_cases leaves : registry.LeavesInput
      · have kept := leaves.source_eq resolved spelled { c.machine with position := some c.index }
        exact ⟨lines, kept.trans read.source, read.le, read.eq⟩
      · obtain ⟨more, enough, left⟩ := Machine.source_perform routine
          (m := { c.machine with position := some c.index }) read.source
        exact ⟨more, left, read.le.trans enough, fun others => absurd others leaves⟩
  | enter close here =>
    rw [other here (by decide)]
    exact ⟨lines, { read with }⟩
  | skip close here =>
    rw [other here (by decide)]
    exact ⟨lines, { read with }⟩
  | back header outer here =>
    rw [other here (by decide)]
    exact ⟨lines, read⟩

end HasRead

namespace Interpreter

variable {i : Interpreter} {code : String} {taken lines : Nat}

/-- A run reads on with every line. -/
theorem exists_hasRead_stateAfter (read : HasRead values i.registry taken lines i.machine)
    (code : String) (n : Nat) :
    ∃ lines', HasRead values i.registry (taken + (i.inputs code n).length) lines'
      (i.stateAfter code n).machine := by
  induction n with
  | zero => exact ⟨lines, { read with }⟩
  | succ n ih =>
    obtain ⟨lines', read'⟩ := ih
    rw [inputs_succ, List.length_append, ← Nat.add_assoc]
    rcases stateAfter_succ i code n with ⟨row, performs⟩ | ⟨result, performs, still⟩
    · exact read'.step performs
    · rw [still, List.filter_singleton, not_isInputAt_of_halt performs]
      exact ⟨lines', read'⟩

/-- So does an execution that ends. -/
theorem exists_hasRead_of_execute (read : HasRead values i.registry taken lines i.machine)
    {fuel : Nat} {result : Except ExecutionError Unit} {after : Interpreter}
    (executed : i.execute fuel code = some (result, after)) :
    ∃ lines', HasRead values i.registry (taken + (i.inputs code fuel).length) lines'
      after.machine := by
  obtain ⟨lines', read'⟩ := exists_hasRead_stateAfter read code fuel
  rw [eq_of_execute executed]
  exact ⟨lines', { read' with }⟩

/-! ## Echoes -/

/-- A program that takes a number and puts it out, `count` times. -/
def echo (count : Nat) : String := String.join (List.replicate count ",.")

theorem echo_succ (count : Nat) : echo (count + 1) = ",." ++ echo count := by
  rw [echo, List.replicate_succ, String.join_cons]
  rfl

/-- The machine has put out these values, one by one, and has reported nothing. -/
structure Echoed (values : List Int64) (base m : Machine) : Prop where
  sink : m.sink = base.sink.after (values.map .emitted)
  hook : m.hook = base.hook
  mode : m.tape.mode = base.tape.mode

theorem Echoed.trans {first second : List Int64} {base middle m : Machine}
    (before : Echoed first base middle) (since : Echoed second middle m) :
    Echoed (first ++ second) base m := by
  refine ⟨?_, since.hook.trans before.hook, since.mode.trans before.mode⟩
  rw [since.sink, before.sink, List.map_append, Sink.after_append]

/-- Where the machine is the same but for positions, the same was put out. -/
theorem Echoed.relocated {f : Nat → Nat} {base m m' : Machine} (echoed : Echoed values base m)
    (related : Machine.Relocated f base m m') : Echoed values base m' := by
  refine ⟨related.sink.trans echoed.sink, ?_, related.tape ▸ echoed.mode⟩
  obtain ⟨reported, hook, hook'⟩ := related.hook
  rw [echoed.hook] at hook
  cases heard : base.hook with
  | none => rw [hook', heard, Option.map_none]
  | some earlier =>
    rw [heard] at hook
    have none_new : reported = [] := List.self_eq_append_left.mp (Option.some.inj hook)
    rw [hook', heard, none_new]
    rfl

/-- One number is taken and put out. -/
theorem exists_executes_take_and_put {value : Int64} {rest : List Int64}
    (input : i.machine.source = .stream (numerals (value :: rest)))
    (unbounded : i.machine.tape.mode = .unbounded) :
    ∃ after, i.Executes ",." (.ok ()) after ∧ Echoed [value] i.machine after.machine ∧
      after.machine.source = .stream (numerals rest) := by
  let first : Configuration := i.initial ",."
  let second := first.performed Builtin.input.routine
  let third := second.performed Builtin.output.routine
  have takes : Performs (Program.ofString ",.").toList i.registry first
      (.next (first.row Builtin.input.symbol .command second) second) :=
    .command _ _ rfl (i.registry.resolve_symbol .input)
  have puts : Performs (Program.ofString ",.").toList i.registry second
      (.next (second.row Builtin.output.symbol .command third) third) :=
    .command _ _ rfl (i.registry.resolve_symbol .output)
  have reached : i.Reaches ",." 2 third := by
    rw [Reaches, advance_succ_of_next takes, advance_succ_of_next puts, advance]
  have ended : Performs ",.".toList i.registry third (.halt (.ok ()) third) := .finish rfl
  have read : HasRead (value :: rest) i.registry 0 0 first.machine :=
    ⟨input, le_rfl, fun _ => rfl⟩
  obtain ⟨took, left⟩ := read.input
  have held : second.machine.get = value := took.unbounded value rfl unbounded
  have output := Machine.performAt_primitive (.builtin .output) second.index second.machine
  have third_eq : third.machine =
      { second.machine.told [.emitted second.machine.get] with position := none } := output
  refine ⟨_, executes_iff.mpr ⟨2, third, reached, ended, rfl⟩, ⟨?_, ?_, ?_⟩, ?_⟩
  · show third.machine.sink = _
    rw [third_eq, held]
    exact congrArg (fun sink => (sink.write [value]).1) took.takes.observed.sink
  · show third.machine.hook = _
    rw [third_eq]
    have silent (hook : Option (List Diagnostic)) : hook.map ([] ++ ·) = hook :=
      Option.map_id_apply
    exact (silent _).trans (took.takes.observed.hook.trans (silent _))
  · show third.machine.tape.mode = _
    rw [third_eq]
    have stored : first.machine.tape.Stored value second.machine.tape := took.takes.tape
    exact stored.mode
  · show third.machine.source = _
    rw [third_eq]
    exact left.source

/-- All numbers are taken and put out, one after the other. -/
theorem exists_executes_echo (values : List Int64)
    (input : i.machine.source = .stream (numerals values))
    (unbounded : i.machine.tape.mode = .unbounded) :
    ∃ after, i.Executes (echo values.length) (.ok ()) after ∧
      Echoed values i.machine after.machine ∧ after.machine.source = .stream [] := by
  induction values generalizing i with
  | nil =>
    have ended : Performs (echo 0).toList i.registry (i.initial (echo 0))
        (.halt (.ok ()) (i.initial (echo 0))) := .finish rfl
    exact ⟨_, executes_iff.mpr ⟨0, _, rfl, ended, rfl⟩, ⟨rfl, rfl, rfl⟩, input⟩
  | cons value rest ih =>
    obtain ⟨middle, executed, echoed, left⟩ := exists_executes_take_and_put input unbounded
    obtain ⟨last, goes, echoed', exhausted⟩ := ih left (echoed.mode.trans unbounded)
    obtain ⟨after, whole, related⟩ := exists_executes_append executed goes
    rw [← echo_succ] at whole
    exact ⟨after, whole, echoed.trans (echoed'.relocated related),
      related.source.trans exhausted⟩

end Interpreter

theorem Effect.values_emitted (values : List Int64) :
    (values.map emitted).filterMap value? = values := by
  rw [List.filterMap_map]
  exact List.filterMap_some

/-- A text sink without a limit has written the lines of the numbers behind what it had
written before. -/
theorem Sink.written_after {writer : Writer} {s : Sink} (unlimited : writer.room = none)
    (numbers : s.receiver = .text .numbers writer) (values : List Int64) :
    (s.after (values.map .emitted)).written.toList = s.written.toList ++ numerals values := by
  obtain ⟨receiver, batches⟩ := s
  obtain ⟨room, written⟩ := writer
  obtain rfl : room = none := unlimited
  obtain rfl : receiver = .text .numbers (.offered none written.toList) := numbers
  rw [Sink.written_after_offered, Effect.values_emitted, numerals_eq]
  rfl

namespace Interpreter

variable {i : Interpreter} {taken : Nat}

/-- What a text sink wrote for some values is read back as these values. When `taken` of its
lines were read, an execution goes on with the next: in every state that it comes to, and
where it ends, at least as many more lines were read as input commands were executed, and
just as many if no custom command reads. The input command that is executed there takes the
value of the next line exactly, with no diagnostic, and behind the last line it reports that
the input is exhausted. In unbounded mode the program that takes and puts out one number for
each line that is left puts out these values, on every tape, and a text sink for numbers
writes just what was read. -/
theorem numerals_read_back (input : i.machine.source = .stream (numerals (values.drop taken))) :
    (∀ code n c, i.Reaches code n c → ∃ lines,
      HasRead values i.registry (taken + (i.inputs code n).length) lines c.machine ∧
      (isInputAt code.toList c.index → ∃ after, i.Reaches code (n + 1) after ∧
        i.inputs code (n + 1) = i.inputs code n ++ [c.index] ∧
        ReadsBack values[lines]? c after)) ∧
    (∀ code fuel result after, i.execute fuel code = some (result, after) → ∃ lines,
      HasRead values i.registry (taken + (i.inputs code fuel).length) lines after.machine) ∧
    (i.machine.tape.mode = .unbounded → ∃ after,
      i.Executes (echo (values.drop taken).length) (.ok ()) after ∧
      after.machine.source = .stream [] ∧ after.machine.hook = i.machine.hook ∧
      after.machine.sink.values = i.machine.sink.values ++ values.drop taken ∧
      ∀ writer : Writer, writer.room = none →
        i.machine.sink.receiver = .text .numbers writer →
        after.machine.sink.written.toList =
          i.machine.sink.written.toList ++ numerals (values.drop taken)) := by
  have read : HasRead values i.registry taken taken i.machine := ⟨input, le_rfl, fun _ => rfl⟩
  refine ⟨?_, ?_, ?_⟩
  · intro code n c reached
    obtain ⟨lines, further⟩ := exists_hasRead_stateAfter read code n
    rw [stateAfter_eq reached] at further
    refine ⟨lines, further, ?_⟩
    intro here
    obtain ⟨next, inputs⟩ := reaches_input reached here
    exact ⟨_, next, inputs, further.input.1⟩
  · intro code fuel result after executed
    exact exists_hasRead_of_execute read executed
  · intro unbounded
    obtain ⟨after, executed, echoed, exhausted⟩ := exists_executes_echo _ input unbounded
    refine ⟨after, executed, exhausted, echoed.hook, ?_, ?_⟩
    · rw [echoed.sink, Sink.values_after, Effect.values_emitted]
    · intro writer unlimited numbers
      rw [echoed.sink, Sink.written_after unlimited numbers]

/-- The least number and the greatest are taken and written down again. In a byte cell the
greatest leaves the greatest byte. -/
theorem numerals_read_back_of_extremes :
    let values := [Int64.minValue, Int64.maxValue]
    let i := ofTape (.blank 1 .unbounded (by decide)) (.toText .numbers none)
      (.stream (numerals (values.drop 0)))
    let j := ofTape (.blank 1 .byte (by decide)) .collecting (.stream (numerals (values.drop 1)))
    (∃ after, i.Executes (echo 2) (.ok ()) after ∧
      after.machine.sink.written.toList = numerals values) ∧
    ∃ after, j.Reaches ",," 1 after ∧ after.machine.get.toInt = 255 := by
  intro values i j
  have leaves : j.registry.LeavesInput := fun _ _ custom => nomatch custom
  obtain ⟨-, -, echoes⟩ := @numerals_read_back values i 0 rfl
  obtain ⟨after, executed, -, -, -, written⟩ := echoes rfl
  obtain ⟨states, -⟩ := @numerals_read_back values j 1 rfl
  obtain ⟨lines, read, goes⟩ := states ",," 0 _ rfl
  obtain ⟨second, reached, -, readsBack⟩ := goes rfl
  obtain rfl : lines = 1 := read.eq leaves
  exact ⟨⟨after, executed, written {} rfl rfl⟩, second, reached,
    readsBack.byte Int64.maxValue rfl rfl⟩

/-- A custom command that reads a line takes it away from the input commands: the first one
executed does not store the first value. -/
theorem line_lost_to_custom_command :
    let values : List Int64 := [5, 7]
    let i := ofTape (.blank 4 .unbounded (by decide)) .collecting (.stream (numerals values))
    ∃ j after, i.add 'r' (.readLine fun _ => .done) = .ok j ∧ j.Executes "r," (.ok ()) after ∧
      j.inputs "r," 2 = [1] ∧ values[0]? = some 5 ∧ after.machine.get = 7 := by
  intro values i
  refine ⟨_, _, rfl, ⟨3, rfl⟩, by decide, rfl, ?_⟩
  decide +kernel

end Interpreter

end RingTape
