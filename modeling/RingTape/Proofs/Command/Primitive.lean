/-
# Primitive commands

A plain program is written with the loop markers, the six built-in commands and the three
stock commands. What one of those commands does is fixed by the cell at the pointer and,
for the input command, by the answer to one reading. So its whole effect can be told
beforehand: the tape and the source it leaves behind, and what it hands to observers. The
laws of plain programs are proved from this account and never from the routines.
-/

import RingTape.Execution.Program
import RingTape.Proofs.Machine.Effects
import RingTape.Proofs.Text.Blank

namespace RingTape

/-- What the input command takes from the answer to its reading: the number on the line,
or the problem that it reports. -/
def Reading.number : Reading → Except InputProblem Int64
  | .ok none => .error .exhausted
  | .error e => .error (.unreadable e.message)
  | .ok (some line) =>
    match Builtin.lineNumber? (Text.trimLineEnd line) with
    | some value => .ok value
    | none => .error (.notANumber (Text.trimLineEnd line))

/-- The number that is taken from a line is the one that its core spells. -/
theorem Reading.number_line (line : String) :
    number (.ok (some line)) =
      match Decimal.int64? (Text.trimList line.toList) with
      | some value => .ok value
      | none => .error (.notANumber (Text.trimLineEnd line)) := by
  rw [number, Builtin.lineNumber?, Text.trimList_trimLineEnd]

/-- The input command stores the number or reports the problem. -/
theorem Builtin.takeReading_eq (reading : Reading) :
    takeReading reading =
      match reading.number with
      | .ok value => .set value .done
      | .error problem => .report problem .done := by
  rcases reading with e | _ | line
  · rfl
  · rfl
  · rw [takeReading, Reading.number]
    cases lineNumber? (Text.trimLineEnd line) <;> rfl

/-- No built-in command is written with a marker. -/
theorem Builtin.symbol_ne_marker (b : Builtin) : b.symbol ≠ loopOpen ∧ b.symbol ≠ loopClose := by
  cases b <;> decide

/-- The commands of plain programs. -/
inductive Primitive
  | builtin (b : Builtin)
  | stock (s : Stock)
  deriving DecidableEq, Repr

namespace Primitive

/-- The character a primitive command is written with. -/
def symbol : Primitive → Char
  | builtin b => b.symbol
  | stock s => s.symbol

/-- The primitive command of a character. -/
def ofSymbol? (name : Char) : Option Primitive :=
  (Builtin.ofSymbol? name).map builtin <|> (Stock.ofSymbol? name).map stock

theorem ofSymbol?_symbol (p : Primitive) : ofSymbol? p.symbol = some p := by
  rcases p with b | s
  · cases b <;> rfl
  · cases s <;> rfl

/-- Markers are no commands. -/
@[simp] theorem ofSymbol?_loopOpen : ofSymbol? loopOpen = none := rfl

@[simp] theorem ofSymbol?_loopClose : ofSymbol? loopClose = none := rfl

/-- What a primitive command does. -/
def routine : Primitive → Routine
  | builtin b => b.routine
  | stock s => s.routine

/-- The tape after a primitive command. -/
def onTape (reading : Reading) (t : Tape) : Primitive → Tape
  | builtin .right => t.forward
  | builtin .left => t.back
  | builtin .increment => t.set (t.get + 1)
  | builtin .decrement => t.set (t.get - 1)
  | builtin .output => t
  | builtin .input =>
    match reading.number with
    | .ok value => t.set value
    | .error _ => t
  | stock .double => t.set (t.get * 2)
  | stock .halve => t.set (t.get / 2)
  | stock .clear => t.set 0

/-- The source after a primitive command: only input reads, and it reads once. -/
def onSource (source : Source) : Primitive → Source
  | builtin .input => source.read.2
  | _ => source

/-- What a primitive command hands to observers. -/
def effects (position : Option Nat) (reading : Reading) (t : Tape) : Primitive → List Effect
  | builtin .output => [.emitted t.get]
  | builtin .input =>
    match reading.number with
    | .ok _ => []
    | .error problem => [.reported ⟨position, problem⟩]
  | _ => []

/-- Observers are handed no more of the tape than the cell at the pointer. -/
theorem effects_congr {t t' : Tape} (p : Primitive) (position : Option Nat) (reading : Reading)
    (cell : t'.get = t.get) : p.effects position reading t' = p.effects position reading t := by
  rcases p with (_ | _ | _ | _ | _ | _) | _ <;> simp only [effects, cell]

end Primitive

namespace Journal

@[simp] theorem filter_recordAll (j : Journal) (events : List Event) :
    (j.recordAll events).filter = j.filter := by
  induction events generalizing j with
  | nil => rfl
  | cons e rest ih => exact (ih (j.record e)).trans (filter_record j e)

theorem events_recordAll (j : Journal) (noted : List Event) :
    (j.recordAll noted).events = j.events ++ noted.filter j.filter.passes := by
  induction noted generalizing j with
  | nil => simp [recordAll]
  | cons e rest ih =>
    have later : (j.recordAll (e :: rest)).events = _ := ih (j.record e)
    rw [later, events_record, filter_record, List.append_assoc, ← List.filter_append]
    rfl

end Journal

namespace Machine

/-- The machine after its observers were handed effects. -/
def told (m : Machine) (effects : List Effect) : Machine :=
  { m with
    sink := m.sink.after effects
    hook := m.hook.map ((effects.filterMap Effect.diagnostic?).reverse ++ ·)
    journal := m.journal.recordAll (Effect.log m.sink effects) }

theorem told_nil (m : Machine) : m.told [] = m := by
  have same_hook : m.hook.map ([] ++ ·) = m.hook := Option.map_id_apply
  exact congrArg (fun hook => { m with hook }) same_hook

/-- A number alone is what is put out. -/
theorem told_emitted (m : Machine) (value : Int64) : m.told [.emitted value] = m.emit value := by
  have same_hook : m.hook.map ([] ++ ·) = m.hook := Option.map_id_apply
  have told_eq : m.told [.emitted value] =
      { m with
        sink := (m.sink.write [value]).1
        journal := m.journal.recordAll (Effect.log m.sink [.emitted value]) } :=
    congrArg (fun hook => { m.told [.emitted value] with hook }) same_hook
  rw [told_eq, emit, Effect.log, Effect.logged]
  rcases m.sink.write [value] with ⟨sink, answer⟩
  cases answer <;> rfl

theorem observed_told (m : Machine) (effects : List Effect) : m.Observed effects (m.told effects) :=
  ⟨rfl, rfl, Journal.filter_recordAll _ _, Journal.events_recordAll _ _⟩

/-- The input command in terms of what it takes from the line. -/
theorem perform_input (m : Machine) :
    m.perform Builtin.input.routine =
      match m.source.read.1.number with
      | .ok value => { m with tape := m.tape.set value, source := m.source.read.2 }
      | .error problem => { m.report problem with source := m.source.read.2 } := by
  have taken : m.perform Builtin.input.routine =
      perform (Builtin.takeReading m.source.read.1) { m with source := m.source.read.2 } := rfl
  rw [taken, Builtin.takeReading_eq]
  cases m.source.read.1.number <;> rfl

/-- The same in a program, where what is reported carries a position. -/
theorem performAt_input (position : Nat) (m : Machine) :
    m.performAt position Builtin.input.routine =
      match m.source.read.1.number with
      | .ok value =>
        { m with tape := m.tape.set value, source := m.source.read.2, position := none }
      | .error problem =>
        { m.told [.reported ⟨some position, problem⟩] with
          source := m.source.read.2, position := none } := by
  have performed := perform_input { m with position := some position }
  refine (congrArg (fun after => { after with position := none }) performed).trans ?_
  cases m.source.read.1.number <;> rfl

/-- What a primitive command does to a machine: the tape, the source and what observers are
handed are as it was told beforehand, and the rest stays as it is. -/
theorem performAt_primitive (p : Primitive) (position : Nat) (m : Machine) :
    m.performAt position p.routine =
      { m.told (p.effects (some position) m.source.read.1 m.tape) with
        tape := p.onTape m.source.read.1 m.tape
        source := p.onSource m.source
        position := none } := by
  let onto (told : Machine) : Machine :=
    { told with
      tape := p.onTape m.source.read.1 m.tape
      source := p.onSource m.source
      position := none }
  have silent : onto m = onto (m.told []) := (congrArg onto m.told_nil).symm
  cases p with
  | stock s => cases s <;> exact silent
  | builtin b =>
    cases b with
    | output =>
      have emitted := told_emitted { m with position := some position } m.get
      exact congrArg (fun told => { told with position := none }) emitted.symm
    | input =>
      rw [Primitive.routine, performAt_input, Primitive.effects, Primitive.onTape]
      cases m.source.read.1.number with
      | ok value =>
        rw [told_nil]
        rfl
      | error problem => rfl
    | _ => exact silent

/-- On another tape with the same number in its cell, a primitive command does nothing
different but to that tape. -/
theorem performAt_of_cell {m : Machine} {t : Tape} (p : Primitive) (position : Nat)
    (cell : t.get = m.tape.get) :
    performAt position p.routine { m with tape := t } =
      { m.performAt position p.routine with tape := p.onTape m.source.read.1 t } := by
  rw [performAt_primitive, performAt_primitive, p.effects_congr _ _ cell]
  rfl

end Machine

namespace Registry

/-- The text is a plain program for the registry: beside markers it is written with
primitive commands, and the registry knows them under their own names. -/
def Understands (r : Registry) (text : List Char) : Prop :=
  ∀ c ∈ text, c = loopOpen ∨ c = loopClose ∨
    ∃ p : Primitive, c = p.symbol ∧ r.resolve c = some p.routine

/-- Built-in commands are known to every registry. -/
theorem resolve_symbol (r : Registry) (b : Builtin) : r.resolve b.symbol = some b.routine := by
  rw [resolve, Builtin.ofSymbol?_symbol]

/-- Where the stock commands are registered, every text of instructions and stock names is
understood. -/
theorem understands_of_stock {r : Registry} {text : List Char}
    (stock : ∀ s : Stock, r.resolve s.symbol = some s.routine)
    (written : text.all (isInstruction (Stock.all.map Stock.symbol))) : r.Understands text := by
  intro c member
  have known := List.all_eq_true.mp written c member
  rw [isInstruction, Bool.or_eq_true, List.contains_iff_mem, List.contains_iff_mem] at known
  rcases known with instruction | named
  · rcases (mem_instructions_iff c).mp instruction with builtin | opened | closed
    · obtain ⟨b, spelled⟩ := Option.isSome_iff_exists.mp builtin
      obtain rfl := Builtin.eq_symbol_of_ofSymbol? spelled
      exact .inr (.inr ⟨.builtin b, rfl, r.resolve_symbol b⟩)
    · exact .inl opened
    · exact .inr (.inl closed)
  · obtain ⟨s, -, rfl⟩ := List.mem_map.mp named
    exact .inr (.inr ⟨.stock s, rfl, stock s⟩)

/-- A command of a plain program is primitive. -/
theorem Understands.exists_primitive {r : Registry} {text : List Char} {name : Char}
    {routine : Routine} (understood : r.Understands text) (member : name ∈ text)
    (resolved : r.resolve name = some routine) :
    ∃ p : Primitive, name = p.symbol ∧ routine = p.routine := by
  rcases understood name member with rfl | rfl | ⟨p, spelled, known⟩
  · rw [resolve_loopOpen] at resolved
    cases resolved
  · rw [resolve_loopClose] at resolved
    cases resolved
  · rw [known] at resolved
    exact ⟨p, spelled, (Option.some.inj resolved).symm⟩

end Registry

end RingTape
