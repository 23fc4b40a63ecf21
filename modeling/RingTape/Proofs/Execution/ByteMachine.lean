/-
# Byte mode is an 8-bit machine

A machine is written down here that knows nothing but bytes: its cells are unsigned 8-bit
values, it adds, subtracts and doubles modulo 256, and of a number on a line it keeps the
remainder. It reads a plain program by itself, and shares with the engine no more than the
pairing of markers and the number on a line.

An interpreter whose tape is in byte mode goes through the same steps. What carries this
along a run is that both hold the same bytes before every instruction, so that they agree
on every test of a loop. What an interpreter hands to observers is compared as effects
because sinks may refuse and journals may filter. The byte machine keeps plain lists.
-/

import RingTape.Proofs.Execution.TraceTable
import RingTape.Proofs.Machine.Soundness
import RingTape.Proofs.Command.Primitive
import RingTape.Proofs.Tape.Bytes

namespace RingTape

open ByteCell

/-- An 8-bit machine in the middle of a program, with what it has printed and reported. -/
structure ByteMachine where
  index : Nat := 0
  calls : List Nat := []
  tape : ByteTape
  source : Source
  printed : List UInt8 := []
  reported : List Diagnostic := []

namespace ByteMachine

/-- Store a byte into the current cell. -/
def store (s : ByteMachine) (b : UInt8) : ByteMachine := { s with tape := s.tape.set b }

/-- Perform a command. -/
def perform (s : ByteMachine) : Primitive → ByteMachine
  | .builtin .right => { s with tape := s.tape.forward }
  | .builtin .left => { s with tape := s.tape.back }
  | .builtin .increment => s.store (s.tape.get + 1)
  | .builtin .decrement => s.store (s.tape.get - 1)
  | .builtin .output => { s with printed := s.printed ++ [s.tape.get] }
  | .builtin .input =>
    match s.source.read.1.number with
    | .ok number => { s.store (remainder number) with source := s.source.read.2 }
    | .error problem =>
      { s with
        source := s.source.read.2
        reported := s.reported ++ [⟨some s.index, problem⟩] }
  | .stock .double => s.store (s.tape.get * 2)
  | .stock .halve => s.store (s.tape.get / 2)
  | .stock .clear => s.store 0

/-- How far a run has come. -/
inductive Progress
  | running (state : ByteMachine)
  | halted (result : Except ExecutionError Unit) (final : ByteMachine)

/-- The state that a run has come to. -/
def Progress.state : Progress → ByteMachine
  | .running state => state
  | .halted _ final => final

/-- The result of a run that has halted. -/
def Progress.result? : Progress → Option (Except ExecutionError Unit)
  | .running _ => none
  | .halted result _ => some result

/-- Perform the instruction under the index. -/
def step (text : List Char) (s : ByteMachine) : Progress :=
  match text[s.index]? with
  | none => .halted (.ok ()) s
  | some name =>
    match Primitive.ofSymbol? name with
    | some p => .running { s.perform p with index := s.index + 1 }
    | none =>
      if name = loopOpen then
        match Nesting.partner text s.index with
        | none => .halted (.error (.unmatchedOpen s.index)) s
        | some close =>
          if s.tape.get = 0 then .running { s with index := close + 1 }
          else .running { s with index := s.index + 1, calls := s.index :: s.calls }
      else if name = loopClose then
        match s.calls with
        | [] => .halted (.error (.unmatchedClose s.index)) s
        | header :: outer => .running { s with index := header, calls := outer }
      else .halted (.error (.unknownCommand name s.index)) s

/-- Take up to a number of steps. -/
def run (text : List Char) : Nat → ByteMachine → Progress
  | 0, s => .running s
  | fuel + 1, s =>
    match step text s with
    | .running after => run text fuel after
    | .halted result final => .halted result final

/-- The 8-bit machine at the beginning of a program, with the bytes and the source of a
machine. -/
def ofMachine (m : Machine) : ByteMachine := { tape := .ofTape m.tape, source := m.source }

end ByteMachine

/-- A machine in byte mode holds what a byte machine holds, and has handed to its observers
since `base` what that one has printed and reported. -/
structure Machine.Shows (base m : Machine) (s : ByteMachine) : Prop where
  tape : m.tape = s.tape.toTape
  source : m.source = s.source
  told : ∃ effects, base.Observed effects m ∧
    effects.filterMap Effect.value? = s.printed.map value ∧
    effects.filterMap Effect.diagnostic? = s.reported

namespace Machine

variable {base m m' : Machine} {s s' : ByteMachine}

theorem Shows.get_eq (shows : base.Shows m s) : m.get = value s.tape.get := by
  rw [get, shows.tape, ByteTape.get_toTape]

/-- What is handed over then is added on either side. -/
theorem Shows.observe (shows : base.Shows m s) {since : List Effect}
    (observed : m.Observed since m') (tape : m'.tape = s'.tape.toTape)
    (source : m'.source = s'.source)
    (printed : s'.printed.map value = s.printed.map value ++ since.filterMap Effect.value?)
    (reported : s'.reported = s.reported ++ since.filterMap Effect.diagnostic?) :
    base.Shows m' s' := by
  obtain ⟨effects, told, values, diagnostics⟩ := shows.told
  refine ⟨tape, source, effects ++ since, told.trans observed, ?_, ?_⟩
  · rw [List.filterMap_append, values, printed]
  · rw [List.filterMap_append, diagnostics, reported]

/-- The notes of the engine are none of the byte machine's business. -/
theorem Shows.record (shows : base.Shows m s) (event : Event) : base.Shows (m.record event) s :=
  shows.observe (observed_record m event) shows.tape shows.source (List.append_nil _).symm
    (List.append_nil _).symm

/-- What was handed to the sink is what was printed. -/
theorem Shows.values_eq (shows : base.Shows m s) :
    m.sink.values = base.sink.values ++ s.printed.map value := by
  obtain ⟨effects, told, values, -⟩ := shows.told
  rw [told.sink, Sink.values_after, values]

end Machine

namespace ByteMachine

variable {s : ByteMachine}

/-- A primitive command leaves the same bytes on either tape. -/
theorem onTape_toTape (p : Primitive) (s : ByteMachine) :
    p.onTape s.source.read.1 s.tape.toTape = (s.perform p).tape.toTape := by
  have cell := s.tape.get_toTape
  cases p with
  | stock c =>
    cases c with
    | double => exact s.tape.set_toTape (by rw [cell, remainder_mul_two])
    | halve => exact s.tape.set_toTape (by rw [cell, remainder_div_two])
    | clear => exact s.tape.set_toTape remainder_zero
  | builtin b =>
    cases b with
    | right => exact s.tape.forward_toTape
    | left => exact s.tape.back_toTape
    | increment => exact s.tape.set_toTape (by rw [cell, remainder_add_one])
    | decrement => exact s.tape.set_toTape (by rw [cell, remainder_sub_one])
    | output => rfl
    | input =>
      rw [Primitive.onTape, perform]
      cases s.source.read.1.number with
      | ok number => exact s.tape.set_toTape rfl
      | error problem => rfl

/-- It leaves the same input. -/
theorem onSource_eq (p : Primitive) (s : ByteMachine) :
    p.onSource s.source = (s.perform p).source := by
  cases p with
  | stock c => cases c <;> rfl
  | builtin b =>
    cases b with
    | input =>
      rw [perform]
      cases s.source.read.1.number <;> rfl
    | _ => rfl

/-- What it hands to the sink is printed. -/
theorem printed_perform (p : Primitive) (s : ByteMachine) :
    (s.perform p).printed.map value = s.printed.map value ++
      (p.effects (some s.index) s.source.read.1 s.tape.toTape).filterMap Effect.value? := by
  cases p with
  | stock c => cases c <;> exact (List.append_nil _).symm
  | builtin b =>
    cases b with
    | output =>
      rw [Primitive.effects, ByteTape.get_toTape]
      exact List.map_append
    | input =>
      rw [Primitive.effects, perform]
      cases s.source.read.1.number <;> exact (List.append_nil _).symm
    | _ => exact (List.append_nil _).symm

/-- What it hands to the hook and the journal is reported. -/
theorem reported_perform (p : Primitive) (s : ByteMachine) :
    (s.perform p).reported = s.reported ++
      (p.effects (some s.index) s.source.read.1 s.tape.toTape).filterMap Effect.diagnostic? := by
  cases p with
  | stock c => cases c <;> exact (List.append_nil _).symm
  | builtin b =>
    cases b with
    | input =>
      rw [Primitive.effects, perform]
      cases s.source.read.1.number with
      | ok number => exact (List.append_nil _).symm
      | error problem => rfl
    | _ => exact (List.append_nil _).symm

/-- No command looks at the stack. -/
theorem calls_perform (p : Primitive) (s : ByteMachine) : (s.perform p).calls = s.calls := by
  cases p with
  | stock c => cases c <;> rfl
  | builtin b =>
    cases b with
    | input =>
      rw [perform]
      cases s.source.read.1.number <;> rfl
    | _ => rfl

end ByteMachine

/-- A primitive command does on bytes what it does on the numbers of byte mode. -/
theorem Machine.Shows.performAt {base m : Machine} {s : ByteMachine} (shows : base.Shows m s)
    (p : Primitive) : base.Shows (m.performAt s.index p.routine) (s.perform p) := by
  rw [performAt_primitive, shows.source, shows.tape]
  have observed : m.Observed (p.effects (some s.index) s.source.read.1 s.tape.toTape) _ :=
    m.observed_told _
  exact shows.observe { observed with } (s.onTape_toTape p) (s.onSource_eq p)
    (s.printed_perform p) (s.reported_perform p)

namespace Execution

variable {base : Machine} {text : List Char} {program : Program} {registry : Registry}
  {c : Configuration} {s : ByteMachine}

/-- A run in byte mode and one of the byte machine are at the same instruction, in the same
loops and hold the same. -/
structure Mirrors (base : Machine) (c : Configuration) (s : ByteMachine) : Prop where
  index : s.index = c.index
  calls : s.calls = c.calls
  machine : base.Shows c.machine s

/-- The runs have come equally far. -/
inductive Lockstep (base : Machine) : Progress → ByteMachine.Progress → Prop
  | running {c : Configuration} {s : ByteMachine} (states : Mirrors base c s) :
      Lockstep base (.running c) (.running s)
  | halted {result : Except ExecutionError Unit} {c : Configuration} {s : ByteMachine}
      (states : Mirrors base c s) : Lockstep base (.halted result c) (.halted result s)

theorem Lockstep.mirrors {progress : Progress} {progress' : ByteMachine.Progress}
    (lockstep : Lockstep base progress progress') :
    Mirrors base progress.state progress'.state := by
  cases lockstep with
  | running states => exact states
  | halted states => exact states

/-- Both find the same in the test of a loop. -/
theorem Mirrors.get_eq_zero_iff (mirrors : Mirrors base c s) :
    s.tape.get = 0 ↔ c.machine.get = 0 := by
  rw [mirrors.machine.get_eq, value_eq_zero_iff]

/-- A step of the run in byte mode is one of the byte machine. -/
theorem Mirrors.step (mirrors : Mirrors base c s) (understood : registry.Understands text)
    {row : Row} {after : Configuration} (performs : Performs text registry c (.next row after)) :
    ∃ s', ByteMachine.step text s = .running s' ∧ Mirrors base after s' := by
  obtain ⟨index, calls, machine⟩ := mirrors
  have same_test := Mirrors.get_eq_zero_iff ⟨index, calls, machine⟩
  cases performs with
  | command name routine read resolved =>
    obtain ⟨p, rfl, rfl⟩ := understood.exists_primitive (List.mem_of_getElem? read) resolved
    refine ⟨{ s.perform p with index := s.index + 1 }, ?_, congrArg (· + 1) index,
      (s.calls_perform p).trans calls, ?_⟩
    · simp only [ByteMachine.step, index, read, Primitive.ofSymbol?_symbol]
    · have performed := machine.performAt p
      rw [index] at performed
      exact { performed with }
  | enter close read found nonzero =>
    refine ⟨{ s with index := s.index + 1, calls := s.index :: s.calls }, ?_,
      congrArg (· + 1) index, ?_, { machine.record _ with }⟩
    · simp only [ByteMachine.step, index, read, Primitive.ofSymbol?_loopOpen, if_pos, found,
        if_neg (mt same_test.mp nonzero)]
    · rw [index, calls]
      rfl
  | skip close read found zero =>
    refine ⟨{ s with index := close + 1 }, ?_, rfl, calls, { machine.record _ with }⟩
    simp only [ByteMachine.step, index, read, Primitive.ofSymbol?_loopOpen, if_pos, found,
      if_pos (same_test.mpr zero)]
  | back header outer read calls_eq =>
    refine ⟨{ s with index := header, calls := outer }, ?_, rfl, rfl, { machine with }⟩
    simp only [ByteMachine.step, index, read, Primitive.ofSymbol?_loopClose,
      if_neg Nesting.loopOpen_ne_loopClose.symm, if_pos, calls, calls_eq]

/-- Where the run in byte mode ends the byte machine does, with the same result. -/
theorem Mirrors.halt (mirrors : Mirrors base c s) (understood : registry.Understands text)
    {result : Except ExecutionError Unit} (performs : Performs text registry c (.halt result c)) :
    ByteMachine.step text s = .halted result s := by
  obtain ⟨index, calls, -⟩ := mirrors
  cases performs with
  | finish ended => simp only [ByteMachine.step, index, ended]
  | unmatchedOpen read alone =>
    simp only [ByteMachine.step, index, read, Primitive.ofSymbol?_loopOpen, if_pos, alone]
  | unmatchedClose read empty =>
    simp only [ByteMachine.step, index, read, Primitive.ofSymbol?_loopClose,
      if_neg Nesting.loopOpen_ne_loopClose.symm, if_pos, calls, empty]
  | unknown name read unresolved ne_open ne_close =>
    -- A plain program has no other characters than those of the cases before.
    rcases understood name (List.mem_of_getElem? read) with opened | closed | ⟨p, -, known⟩
    · exact absurd opened ne_open
    · exact absurd closed ne_close
    · rw [known] at unresolved
      cases unresolved

/-- A run in byte mode and one of the byte machine stay in step. -/
theorem Mirrors.lockstep (mirrors : Mirrors base c s)
    (understood : registry.Understands program.toList) (n : Nat) :
    Lockstep base (advance program registry n c) (ByteMachine.run program.toList n s) := by
  induction n generalizing c s with
  | zero => exact .running mirrors
  | succ n ih =>
    obtain ⟨outcome, performs⟩ := exists_performs program.toList registry c
    cases outcome with
    | next row after =>
      obtain ⟨s', stepped, behind⟩ := mirrors.step understood performs
      rw [advance_succ_of_next performs, ByteMachine.run, stepped]
      exact ih behind
    | halt result final =>
      obtain rfl := performs.final_eq
      rw [advance_succ_of_halt performs, ByteMachine.run, mirrors.halt understood performs]
      exact .halted mirrors

end Execution

namespace Interpreter

open Execution

variable {i : Interpreter} {code : String}

/-- A tape in byte mode of numbers from 0 to 255 is one of bytes, so an execution and the
byte machine begin alike. -/
theorem mirrors_initial (code : String) (byte : i.machine.tape.mode = .byte)
    (bytes : ∀ number ∈ i.machine.tape.cells, 0 ≤ number.toInt ∧ number.toInt ≤ 255) :
    Mirrors i.machine (i.initial code) (.ofMachine i.machine) := by
  have begins : i.machine.Shows i.machine (.ofMachine i.machine) :=
    ⟨(ByteTape.toTape_ofTape byte bytes).symm, rfl, [], .refl _, rfl, rfl⟩
  exact ⟨rfl, rfl, begins.record _⟩

/-- In byte mode a plain program runs as on an 8-bit machine. After every number of steps
both are at the same instruction in the same loops with the same bytes, or both have ended
with the same result. They leave the same input, and what the interpreter has put out and
reported is what the other has printed and reported, so that every number put out is the
value of a byte. An execution ends exactly if the byte machine does. -/
theorem execute_bytes (understood : i.registry.Understands code.toList)
    (byte : i.machine.tape.mode = .byte)
    (bytes : ∀ number ∈ i.machine.tape.cells, 0 ≤ number.toInt ∧ number.toInt ≤ 255) :
    (∀ n, Lockstep i.machine (advance (Program.ofString code) i.registry n (i.initial code))
      (ByteMachine.run code.toList n (.ofMachine i.machine))) ∧
    (∀ n, ∀ number ∈ (i.initial code).putOut (i.stateAfter code n),
      0 ≤ number.toInt ∧ number.toInt ≤ 255) ∧
    ∀ n, (i.execute n code).map Prod.fst =
        (ByteMachine.run code.toList n (.ofMachine i.machine)).result? ∧
      ∀ result after, i.execute n code = some (result, after) →
        i.machine.Shows after.machine
          (ByteMachine.run code.toList n (.ofMachine i.machine)).state := by
  have lockstep (n : Nat) : Lockstep i.machine
      (advance (Program.ofString code) i.registry n (i.initial code))
      (ByteMachine.run code.toList n (.ofMachine i.machine)) :=
    (mirrors_initial code byte bytes).lockstep understood n
  refine ⟨lockstep, fun n number member => ?_, fun n => ?_⟩
  · have printed := (lockstep n).mirrors.machine.values_eq
    have put_out : (i.initial code).putOut (i.stateAfter code n) = _ :=
      (congrArg (List.drop _) printed).trans List.drop_left
    rw [put_out] at member
    obtain ⟨b, -, rfl⟩ := List.mem_map.mp member
    exact value_mem b
  · have together := lockstep n
    rw [execute_eq]
    generalize advance (Program.ofString code) i.registry n (i.initial code) = progress
      at together ⊢
    generalize ByteMachine.run code.toList n (.ofMachine i.machine) = progress' at together ⊢
    cases together with
    | running states => exact ⟨rfl, fun _ _ executed => nomatch executed⟩
    | halted states =>
      refine ⟨rfl, fun result after executed => ?_⟩
      cases executed
      exact states.machine.record _

/-- Lines with the least number of 64 bits, with a negative number and with one above 255,
on two cells. The numbers put out are 0, then 255 and what a byte makes of its double and
the half of that, then 44 and, over the end of the tape, 0 less one. -/
theorem execute_bytes_of_extremes :
    let input := Utf8.encode "-9223372036854775808\n-1\n300\n"
    let i := (ofTape (.blank 2 .byte (by decide)) .collecting (.stream input)).addStock.2
    i.registry.Understands ",.>,.*./.,.>-.".toList ∧
      ∃ after, i.execute 20 ",.>,.*./.,.>-." = some (.ok (), after) ∧
        after.machine.sink.values = [0, 255, 254, 127, 44, 255] := by
  intro input i
  have understood : i.registry.Understands ",.>,.*./.,.>-.".toList :=
    Registry.understands_of_stock (fun s => by cases s <;> rfl) rfl
  obtain ⟨-, -, ends⟩ := execute_bytes understood rfl ((Tape.sound_blank (by decide)).bytes rfl)
  obtain ⟨same_result, shows⟩ := ends 20
  have result : (i.execute 20 ",.>,.*./.,.>-.").map Prod.fst = some (.ok ()) :=
    same_result.trans (by decide)
  obtain ⟨⟨_, after⟩, executed, rfl⟩ := Option.map_eq_some_iff.mp result
  refine ⟨understood, after, executed, ?_⟩
  rw [(shows _ after executed).values_eq]
  decide +kernel

end Interpreter

end RingTape
