/-
# Machines that differ in positions only

The same commands can be run at other positions of another program. All that a
machine then does otherwise is to report other positions: tape, sink, source and
memory do not depend on them. Two machines are compared from some earlier state on;
the diagnostics since then agree up to the positions, those before it as they are.

Of the journal only the events of commands are compared, because what the engine
notes of its own doings is part of no command.
-/

import RingTape.Machine

namespace RingTape

/-- Whether commands note an event; all others are noted around them. -/
def Event.isOfCommand : Event → Bool
  | .sinkRejected .. | .inputFailed _ => true
  | _ => false

/-- What commands have noted. -/
def Journal.ofCommands (j : Journal) : List Event := j.events.filter Event.isOfCommand

/-- A diagnostic at another position. -/
def Diagnostic.relocate (f : Nat → Nat) (d : Diagnostic) : Diagnostic :=
  { d with position := d.position.map f }

/-- An event with its diagnostic at another position. -/
def Event.relocate (f : Nat → Nat) : Event → Event
  | .inputFailed d => .inputFailed (d.relocate f)
  | e => e

@[simp] theorem Diagnostic.relocate_id : Diagnostic.relocate id = id := by
  funext d
  simp [Diagnostic.relocate]

@[simp] theorem Event.relocate_id : Event.relocate id = id := by
  funext e
  cases e <;> simp [Event.relocate]

@[simp] theorem Event.isOfCommand_relocate (f : Nat → Nat) (e : Event) :
    (e.relocate f).isOfCommand = e.isOfCommand := by
  cases e <;> rfl

/-- A filter looks at no position. -/
@[simp] theorem LogFilter.passes_relocate (filter : LogFilter) (f : Nat → Nat) (e : Event) :
    filter.passes (e.relocate f) = filter.passes e := by
  cases e <;> rfl

namespace Journal

@[simp] theorem filter_record (j : Journal) (e : Event) : (j.record e).filter = j.filter := by
  unfold record
  split <;> rfl

/-- An event of a command is added if it passes the filter, any other is not. -/
theorem ofCommands_record (j : Journal) (e : Event) :
    (j.record e).ofCommands =
      j.ofCommands ++ if e.isOfCommand ∧ j.filter.passes e then [e] else [] := by
  unfold record
  by_cases passes : j.filter.passes e
  · rw [if_pos passes]
    cases mine : e.isOfCommand <;> simp [ofCommands, events, passes, mine]
  · rw [if_neg passes, if_neg fun both => passes both.2, List.append_nil]

end Journal

namespace Machine

/-- Machines that nothing but the engine's own notes can tell apart. -/
structure Agrees (m m' : Machine) : Prop where
  tape : m'.tape = m.tape
  sink : m'.sink = m.sink
  source : m'.source = m.source
  memory : m'.memory = m.memory
  hook : m'.hook = m.hook
  ofCommands : m'.journal.ofCommands = m.journal.ofCommands

/-- Machines that did the same since `base`, but for the positions, which `f` moves. -/
structure Relocated (f : Nat → Nat) (base m m' : Machine) : Prop where
  tape : m'.tape = m.tape
  sink : m'.sink = m.sink
  source : m'.source = m.source
  memory : m'.memory = m.memory
  filter : m'.journal.filter = m.journal.filter
  hook : ∃ reported : List Diagnostic, m.hook = base.hook.map (reported ++ ·) ∧
    m'.hook = base.hook.map (reported.map (Diagnostic.relocate f) ++ ·)
  ofCommands : ∃ noted : List Event,
    m.journal.ofCommands = base.journal.ofCommands ++ noted ∧
      m'.journal.ofCommands = base.journal.ofCommands ++ noted.map (Event.relocate f)

theorem Relocated.refl (f : Nat → Nat) (m : Machine) : Relocated f m m m :=
  ⟨rfl, rfl, rfl, rfl, rfl, ⟨[], by simp, by simp⟩, ⟨[], by simp, by simp⟩⟩

/-- Where positions are not moved, the machines agree. -/
theorem Relocated.agrees {base m m' : Machine} (related : Relocated id base m m') :
    Agrees m m' := by
  obtain ⟨reported, hook, hook'⟩ := related.hook
  obtain ⟨noted, events, events'⟩ := related.ofCommands
  refine ⟨related.tape, related.sink, related.source, related.memory, ?_, ?_⟩
  · rw [hook, hook']
    simp
  · rw [events, events']
    simp

variable {f : Nat → Nat} {base m m' : Machine}

/-- Machines that agree so far may be compared from now on. -/
theorem Relocated.rebase (related : Relocated id base m m') (g : Nat → Nat) :
    Relocated g m m m' := by
  have agrees := related.agrees
  refine ⟨agrees.tape, agrees.sink, agrees.source, agrees.memory, related.filter, ⟨[], ?_, ?_⟩,
    ⟨[], ?_, ?_⟩⟩
  · simp
  · simp [agrees.hook]
  · simp
  · simp [agrees.ofCommands]

theorem Relocated.get_eq (related : Relocated f base m m') : m'.get = m.get := by
  rw [get, get, related.tape]

/-- What the engine notes on one side changes nothing. -/
theorem Relocated.record_left (related : Relocated f base m m') {e : Event}
    (engine : e.isOfCommand = false) : Relocated f base (m.record e) m' := by
  refine ⟨related.tape, related.sink, related.source, related.memory, ?_, related.hook, ?_⟩
  · rw [related.filter]
    exact (Journal.filter_record _ _).symm
  · rw [record, Journal.ofCommands_record, engine, if_neg (by simp), List.append_nil]
    exact related.ofCommands

theorem Relocated.record_right (related : Relocated f base m m') {e : Event}
    (engine : e.isOfCommand = false) : Relocated f base m (m'.record e) := by
  refine ⟨related.tape, related.sink, related.source, related.memory, ?_, related.hook, ?_⟩
  · rw [← related.filter]
    exact Journal.filter_record _ _
  · rw [record, Journal.ofCommands_record, engine, if_neg (by simp), List.append_nil]
    exact related.ofCommands

/-- An event that both sides note is the same up to its position. -/
theorem Relocated.record (related : Relocated f base m m') (e : Event) :
    Relocated f base (m.record e) (m'.record (e.relocate f)) := by
  obtain ⟨noted, events, events'⟩ := related.ofCommands
  refine ⟨related.tape, related.sink, related.source, related.memory, ?_, related.hook, ?_⟩
  · rw [Machine.record, Machine.record, Journal.filter_record, Journal.filter_record,
      related.filter]
  · refine ⟨noted ++ if e.isOfCommand ∧ m.journal.filter.passes e then [e] else [], ?_, ?_⟩
    · rw [Machine.record, Journal.ofCommands_record, events, List.append_assoc]
    · rw [Machine.record, Journal.ofCommands_record, events', related.filter,
        Event.isOfCommand_relocate, LogFilter.passes_relocate, List.append_assoc, List.map_append]
      split <;> rfl

theorem Relocated.setTape (related : Relocated f base m m') (change : Tape → Tape) :
    Relocated f base { m with tape := change m.tape } { m' with tape := change m'.tape } :=
  { related with tape := congrArg change related.tape }

theorem Relocated.emit (related : Relocated f base m m') (value : Int64) :
    Relocated f base (m.emit value) (m'.emit value) := by
  unfold Machine.emit
  rw [related.sink]
  rcases m.sink.write [value] with ⟨sink, answer⟩
  cases answer with
  | ok _ => exact { related with sink := rfl }
  | error e => exact { related.record (.sinkRejected value e) with sink := rfl }

theorem report_eq (m : Machine) (problem : InputProblem) :
    m.report problem =
      { m.record (.inputFailed ⟨m.position, problem⟩) with
        hook := m.hook.map (⟨m.position, problem⟩ :: ·) } :=
  rfl

/-- A report adds one diagnostic on either side. -/
theorem Relocated.report (related : Relocated f base m m')
    (position : m'.position = m.position.map f) (problem : InputProblem) :
    Relocated f base (m.report problem) (m'.report problem) := by
  obtain ⟨reported, hook, hook'⟩ := related.hook
  have stacked (d : Diagnostic) (earlier : List Diagnostic) :
      (base.hook.map (earlier ++ ·)).map (d :: ·) = base.hook.map (d :: earlier ++ ·) := by
    rw [Option.map_map]
    rfl
  have same : (⟨m'.position, problem⟩ : Diagnostic) =
      Diagnostic.relocate f ⟨m.position, problem⟩ := by
    rw [position]
    rfl
  have recorded := related.record (.inputFailed ⟨m.position, problem⟩)
  rw [report_eq, report_eq, same, hook, hook', stacked, stacked]
  exact { recorded with hook := ⟨⟨m.position, problem⟩ :: reported, rfl, rfl⟩ }

/-- Nothing but the frame around a command sets the position. -/
@[simp] theorem position_emit (m : Machine) (value : Int64) :
    (m.emit value).position = m.position := by
  unfold Machine.emit
  split <;> rfl

/-- A routine does the same on both sides. -/
theorem Relocated.perform (routine : Routine) (related : Relocated f base m m')
    (position : m'.position = m.position.map f) :
    Relocated f base (m.perform routine) (m'.perform routine) := by
  induction routine generalizing m m' with
  | done => exact related
  | forward next ih => exact ih (related.setTape Tape.forward) position
  | back next ih => exact ih (related.setTape Tape.back) position
  | get next ih =>
    rw [Machine.perform, Machine.perform, related.get_eq]
    exact ih m.get related position
  | inspect next ih =>
    rw [Machine.perform, Machine.perform, related.tape]
    exact ih m.tape related position
  | set value next ih => exact ih (related.setTape (·.set value)) position
  | reset next ih => exact ih (related.setTape Tape.reset) position
  | emit value next ih => exact ih (related.emit value) (by simpa using position)
  | readLine next ih =>
    rw [Machine.perform, Machine.perform, Machine.readLine, Machine.readLine, related.source]
    exact ih m.source.read.1 { related with source := rfl } position
  | report problem next ih => exact ih (related.report position problem) position
  | retrieve slot next ih =>
    rw [Machine.perform, Machine.perform, retrieve, retrieve, related.memory]
    exact ih _ related position
  | keep slot value next ih =>
    refine ih { related with memory := ?_ } position
    rw [Machine.keep, Machine.keep, related.memory]

/-- A command does the same at a position as at the one it is moved to. -/
theorem Relocated.performAt (related : Relocated f base m m') (position : Nat)
    (routine : Routine) :
    Relocated f base (m.performAt position routine) (m'.performAt (f position) routine) := by
  have framed : Relocated f base { m with position := some position }
      { m' with position := some (f position) } := { related with }
  exact { framed.perform routine rfl with }

end Machine

end RingTape
