/-
# What observers are handed

A machine has three observers: the sink takes the numbers, the hook the diagnostics and
the journal the events. What a machine hands to them is a list of effects, and what they
then know is a function of that list and of what they knew before. A sink may refuse a
number, but all that follows from it is a note in the journal.

So two machines can be compared that differ in their observers only. They do the same
and hand over the same effects, whatever becomes of these.
-/

import RingTape.Proofs.Machine.Relocation

namespace RingTape

/-- What is handed to observers: a number for the sink, a diagnostic for the hook and the
journal, or a note of the engine for the journal. -/
inductive Effect
  | emitted (value : Int64)
  | reported (diagnostic : Diagnostic)
  | noted (event : Event)
  deriving DecidableEq, Repr

namespace Effect

/-- The number that is put out. -/
def value? : Effect → Option Int64
  | emitted value => some value
  | _ => none

/-- The diagnostic that is reported. -/
def diagnostic? : Effect → Option Diagnostic
  | reported diagnostic => some diagnostic
  | _ => none

/-- The sink after an effect. Every number is a batch of its own. -/
def onSink (sink : Sink) : Effect → Sink
  | emitted value => (sink.write [value]).1
  | _ => sink

/-- What an effect gives to log beside a sink: a refusal for a number that the sink
refuses then, and a warning for every diagnostic. -/
def logged (sink : Sink) : Effect → List Event
  | emitted value =>
    match (sink.write [value]).2 with
    | .ok () => []
    | .error e => [.sinkRejected value e]
  | reported diagnostic => [.inputFailed diagnostic]
  | noted event => [event]

/-- What effects give to log, one after the other. -/
def log : Sink → List Effect → List Event
  | _, [] => []
  | sink, effect :: rest => effect.logged sink ++ log (effect.onSink sink) rest

end Effect

/-- The sink after effects. -/
def Sink.after (sink : Sink) (effects : List Effect) : Sink := effects.foldl Effect.onSink sink

namespace Effect

theorem log_append (sink : Sink) (first second : List Effect) :
    log sink (first ++ second) = log sink first ++ log (sink.after first) second := by
  induction first generalizing sink with
  | nil => rfl
  | cons effect rest ih =>
    rw [List.cons_append, log, log, ih, List.append_assoc]
    rfl

end Effect

namespace Sink

theorem after_append (sink : Sink) (first second : List Effect) :
    sink.after (first ++ second) = (sink.after first).after second :=
  List.foldl_append

/-- A sink keeps every batch that it was handed, also a refused one. -/
@[simp] theorem batches_write (sink : Sink) (batch : Batch) :
    (sink.write batch).1.batches = batch :: sink.batches := by
  obtain ⟨receiver, batches⟩ := sink
  cases receiver <;> rfl

/-- The batches are the numbers put out, one by one. -/
theorem batches_after (sink : Sink) (effects : List Effect) :
    (sink.after effects).batches =
      ((effects.filterMap Effect.value?).map ([·])).reverse ++ sink.batches := by
  induction effects generalizing sink with
  | nil => rfl
  | cons effect rest ih =>
    have later : (sink.after (effect :: rest)).batches = _ := ih (effect.onSink sink)
    rw [later]
    cases effect with
    | emitted value => simp [Effect.onSink, Effect.value?]
    | reported diagnostic => rfl
    | noted event => rfl

/-- A sink was handed the numbers that were put out, in order. -/
theorem values_after (sink : Sink) (effects : List Effect) :
    (sink.after effects).values = sink.values ++ effects.filterMap Effect.value? := by
  rw [values, batches_after, List.reverse_append, List.reverse_reverse, List.flatten_append,
    ← List.flatMap_def, List.flatMap_singleton']
  rfl

end Sink

namespace Journal

theorem events_record (j : Journal) (e : Event) :
    (j.record e).events = j.events ++ [e].filter j.filter.passes := by
  unfold record
  cases passes : j.filter.passes e <;> simp [events, passes]

end Journal

namespace Machine

/-- The observers of `m` know what those of `base` knew, and of the effects since then. -/
structure Observed (base : Machine) (effects : List Effect) (m : Machine) : Prop where
  sink : m.sink = base.sink.after effects
  hook : m.hook = base.hook.map ((effects.filterMap Effect.diagnostic?).reverse ++ ·)
  filter : m.journal.filter = base.journal.filter
  events : m.journal.events =
    base.journal.events ++ (Effect.log base.sink effects).filter base.journal.filter.passes

variable {base base' m m' : Machine}

theorem Observed.refl (m : Machine) : Observed m [] m :=
  ⟨rfl, by simp, rfl, by simp [Effect.log]⟩

theorem Observed.trans {first second : List Effect} (before : Observed base first m)
    (since : Observed m second m') : Observed base (first ++ second) m' := by
  refine ⟨?_, ?_, since.filter.trans before.filter, ?_⟩
  · rw [since.sink, before.sink, Sink.after_append]
  · rw [since.hook, before.hook, Option.map_map, List.filterMap_append, List.reverse_append]
    congr 1
    funext earlier
    exact (List.append_assoc _ _ _).symm
  · rw [since.events, before.events, before.filter, before.sink, Effect.log_append,
      List.filter_append, List.append_assoc]

/-- A number goes to the sink, and to the journal if it is refused. -/
theorem observed_emit (m : Machine) (value : Int64) :
    Observed m [.emitted value] (m.emit value) := by
  have same_hook : m.hook = m.hook.map ([] ++ ·) := by simp
  unfold emit
  split
  · next sink answered =>
    refine ⟨?_, same_hook, rfl, ?_⟩
    · simp [Sink.after, Effect.onSink, answered]
    · simp [Effect.log, Effect.logged, answered]
  · next sink e answered =>
    refine ⟨?_, same_hook, Journal.filter_record _ _, ?_⟩
    · simp [Sink.after, Effect.onSink, answered]
    · simp [Effect.log, Effect.logged, answered, Journal.events_record]

/-- A diagnostic goes to the journal, and to the hook if there is one. -/
theorem observed_report (m : Machine) (problem : InputProblem) :
    Observed m [.reported ⟨m.position, problem⟩] (m.report problem) :=
  ⟨rfl, rfl, Journal.filter_record _ _, Journal.events_record _ _⟩

/-- A note of the engine goes to the journal. -/
theorem observed_record (m : Machine) (event : Event) :
    Observed m [.noted event] (m.record event) :=
  ⟨rfl, (Option.map_id_apply).symm, Journal.filter_record _ _, Journal.events_record _ _⟩

/-- Machines that did the same before different observers, one since `base` and one since
`base'`. -/
structure Twins (base base' m m' : Machine) : Prop where
  tape : m'.tape = m.tape
  source : m'.source = m.source
  memory : m'.memory = m.memory
  effects : ∃ effects, Observed base effects m ∧ Observed base' effects m' ∧
    ∀ event, .noted event ∈ effects → event.isOfCommand = false

/-- Machines are twins if they differ in their observers only. -/
theorem Twins.refl (tape : m'.tape = m.tape) (source : m'.source = m.source)
    (memory : m'.memory = m.memory) : Twins m m' m m' :=
  ⟨tape, source, memory, [], Observed.refl m, Observed.refl m', fun _ member => nomatch member⟩

theorem Twins.get_eq (twins : Twins base base' m m') : m'.get = m.get := by
  rw [get, get, twins.tape]

/-- The same effects follow on either side. -/
theorem Twins.observe {after after' : Machine} (twins : Twins base base' m m')
    {since : List Effect} (tape : after'.tape = after.tape) (source : after'.source = after.source)
    (memory : after'.memory = after.memory) (one : Observed m since after)
    (other : Observed m' since after')
    (engine : ∀ event, .noted event ∈ since → event.isOfCommand = false) :
    Twins base base' after after' := by
  obtain ⟨effects, observed, observed', notes⟩ := twins.effects
  refine ⟨tape, source, memory, effects ++ since, observed.trans one, observed'.trans other, ?_⟩
  intro event member
  rcases List.mem_append.mp member with before | later
  · exact notes event before
  · exact engine event later

/-- The same happens on either side and no observer is told. -/
theorem Twins.frame {after after' : Machine} (twins : Twins base base' m m')
    (tape : after'.tape = after.tape) (source : after'.source = after.source)
    (memory : after'.memory = after.memory) (one : Observed m [] after)
    (other : Observed m' [] after') : Twins base base' after after' :=
  twins.observe tape source memory one other fun _ member => nomatch member

theorem Twins.setTape (twins : Twins base base' m m') (change : Tape → Tape) :
    Twins base base' { m with tape := change m.tape } { m' with tape := change m'.tape } :=
  twins.frame (congrArg change twins.tape) twins.source twins.memory { Observed.refl m with }
    { Observed.refl m' with }

/-- Whether a sink takes a number concerns nothing but the sink and the journal. -/
theorem frame_emit (m : Machine) (value : Int64) :
    (m.emit value).tape = m.tape ∧ (m.emit value).source = m.source ∧
      (m.emit value).memory = m.memory := by
  unfold emit
  split <;> exact ⟨rfl, rfl, rfl⟩

theorem Twins.emit (twins : Twins base base' m m') (value : Int64) :
    Twins base base' (m.emit value) (m'.emit value) := by
  obtain ⟨tape, source, memory⟩ := frame_emit m value
  obtain ⟨tape', source', memory'⟩ := frame_emit m' value
  refine twins.observe ?_ ?_ ?_ (observed_emit m value) (observed_emit m' value)
    (fun event member => by simp at member)
  · rw [tape, tape', twins.tape]
  · rw [source, source', twins.source]
  · rw [memory, memory', twins.memory]

theorem Twins.report (twins : Twins base base' m m') (position : m'.position = m.position)
    (problem : InputProblem) : Twins base base' (m.report problem) (m'.report problem) := by
  have other := observed_report m' problem
  rw [position] at other
  exact twins.observe twins.tape twins.source twins.memory (observed_report m problem) other
    (fun event member => by simp at member)

theorem Twins.record (twins : Twins base base' m m') {event : Event}
    (engine : event.isOfCommand = false) :
    Twins base base' (m.record event) (m'.record event) :=
  twins.observe twins.tape twins.source twins.memory (observed_record m event)
    (observed_record m' event) fun other member => by
      obtain rfl : other = event := by simpa using member
      exact engine

/-- A routine does the same before all observers, since it never learns of them. -/
theorem Twins.perform (routine : Routine) (twins : Twins base base' m m')
    (position : m'.position = m.position) :
    Twins base base' (m.perform routine) (m'.perform routine) := by
  -- What a routine can ask for (cell, tape, line, slot) is the same on both sides, so it
  -- goes on in the same way.
  induction routine generalizing m m' with
  | done => exact twins
  | forward next ih => exact ih (twins.setTape Tape.forward) position
  | back next ih => exact ih (twins.setTape Tape.back) position
  | get next ih =>
    rw [Machine.perform, Machine.perform, twins.get_eq]
    exact ih m.get twins position
  | inspect next ih =>
    rw [Machine.perform, Machine.perform, twins.tape]
    exact ih m.tape twins position
  | set value next ih => exact ih (twins.setTape (·.set value)) position
  | reset next ih => exact ih (twins.setTape Tape.reset) position
  | emit value next ih => exact ih (twins.emit value) (by simpa using position)
  | readLine next ih =>
    rw [Machine.perform, Machine.perform, Machine.readLine, Machine.readLine, twins.source]
    exact ih m.source.read.1 (twins.frame twins.tape rfl twins.memory { Observed.refl m with }
      { Observed.refl m' with }) position
  | report problem next ih => exact ih (twins.report position problem) position
  | retrieve slot next ih =>
    rw [Machine.perform, Machine.perform, retrieve, retrieve, twins.memory]
    exact ih _ twins position
  | keep slot value next ih =>
    refine ih (twins.frame twins.tape twins.source ?_ { Observed.refl m with }
      { Observed.refl m' with }) position
    rw [Machine.keep, Machine.keep, twins.memory]

/-- A command does the same before all observers. -/
theorem Twins.performAt (twins : Twins base base' m m') (position : Nat) (routine : Routine) :
    Twins base base' (m.performAt position routine) (m'.performAt position routine) := by
  have framed : Twins base base' { m with position := some position }
      { m' with position := some position } :=
    twins.frame twins.tape twins.source twins.memory { Observed.refl m with }
      { Observed.refl m' with }
  have performed := framed.perform routine rfl
  exact performed.frame performed.tape performed.source performed.memory
    { Observed.refl _ with } { Observed.refl _ with }

end Machine

end RingTape
