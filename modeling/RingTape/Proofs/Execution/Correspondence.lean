/-
# One program inside another

A run of one text can be followed in another that holds the same instructions at other
places. Two states correspond when index and stack of one are found at the places of the
other and their machines did the same. From corresponding states the same step is taken,
provided that the places hold the same character and the same partner; so the laws of
longer, filtered and changed programs differ only in why that is so.

Where the second run takes more steps than the first, because its text has more to it, it
still ends exactly if the first does.
-/

import RingTape.Proofs.Execution.Stepping

namespace RingTape

/-- An error at another position. -/
def ExecutionError.relocate (f : Nat → Nat) : ExecutionError → ExecutionError
  | .unknownCommand name p => .unknownCommand name (f p)
  | .unmatchedOpen p => .unmatchedOpen (f p)
  | .unmatchedClose p => .unmatchedClose (f p)

namespace Execution

open Nesting

/-- States of runs of two texts at places that correspond, with machines that did the same
since `base`. -/
structure Corresponds (place : Nat → Nat) (base : Machine) (c d : Configuration) : Prop where
  index : d.index = place c.index
  calls : d.calls = c.calls.map place
  machine : Machine.Relocated place base c.machine d.machine

/-- The place that a step leads to: that of the next index, or the one behind the place of
the instruction, where the other text need not go on in the same way. -/
def Follows (place : Nat → Nat) (index index' : Nat) : Prop :=
  index' = place index ∨ ∃ before, index = before + 1 ∧ index' = place before + 1

variable {place : Nat → Nat} {text whole : List Char} {registry others : Registry} {base : Machine}
  {c d : Configuration}

/-- From corresponding states the same step is taken. -/
theorem Corresponds.step (corresponds : Corresponds place base c d)
    (same : ∀ name, text[c.index]? = some name →
      whole[d.index]? = some name ∧ others.resolve name = registry.resolve name)
    (matched : ∀ close, text[c.index]? = some loopOpen → partner text c.index = some close →
      partner whole d.index = some (place close))
    {row : Row} {after : Configuration} (performs : Performs text registry c (.next row after)) :
    ∃ row' after', Performs whole others d (.next row' after') ∧
      Follows place after.index after'.index ∧ after'.calls = after.calls.map place ∧
      Machine.Relocated place base after.machine after'.machine := by
  obtain ⟨index, calls, machine⟩ := corresponds
  have behind : Follows place (c.index + 1) (d.index + 1) := .inr ⟨c.index, rfl, by rw [index]⟩
  cases performs with
  | command name routine read resolved =>
    obtain ⟨read', known⟩ := same name read
    refine ⟨_, _, .command name routine read' (known.trans resolved), behind, calls, ?_⟩
    have performed : Machine.Relocated place base (c.machine.performAt c.index routine)
        (d.machine.performAt (place c.index) routine) := machine.performAt c.index routine
    rwa [← index] at performed
  | enter close read found nonzero =>
    have nonzero' : d.machine.get ≠ 0 := machine.get_eq.trans_ne nonzero
    refine ⟨_, _, .enter _ (same _ read).1 (matched close read found) nonzero', behind, ?_, ?_⟩
    · rw [Configuration.entered, Configuration.entered, calls, index, List.map_cons]
    · exact (machine.record_left rfl).record_right rfl
  | skip close read found zero =>
    have zero' : d.machine.get = 0 := machine.get_eq.trans zero
    refine ⟨_, _, .skip _ (same _ read).1 (matched close read found) zero', ?_, calls, ?_⟩
    · exact .inr ⟨close, rfl, rfl⟩
    · exact (machine.record_left rfl).record_right rfl
  | back header outer read calls_eq =>
    rw [calls_eq, List.map_cons] at calls
    exact ⟨_, _, .back (place header) (outer.map place) (same _ read).1 calls, .inl rfl, rfl,
      machine⟩

/-- From corresponding states the run ends in the same way. -/
theorem Corresponds.halt (corresponds : Corresponds place base c d)
    (same : ∀ name, text[c.index]? = some name →
      whole[d.index]? = some name ∧ others.resolve name = registry.resolve name)
    (ends : text[c.index]? = none → whole[d.index]? = none)
    (unmatched : text[c.index]? = some loopOpen → partner text c.index = none →
      partner whole d.index = none)
    {result : Except ExecutionError Unit} (performs : Performs text registry c (.halt result c)) :
    Performs whole others d (.halt (result.mapError (ExecutionError.relocate place)) d) := by
  obtain ⟨index, calls, -⟩ := corresponds
  cases performs with
  | finish ended => exact .finish (ends ended)
  | unmatchedOpen read alone =>
    rw [Except.mapError, ExecutionError.relocate, ← index]
    exact .unmatchedOpen (same _ read).1 (unmatched read alone)
  | unmatchedClose read empty =>
    rw [empty, List.map_nil] at calls
    rw [Except.mapError, ExecutionError.relocate, ← index]
    exact .unmatchedClose (same _ read).1 calls
  | unknown name read unresolved ne_open ne_close =>
    obtain ⟨read', known⟩ := same name read
    rw [Except.mapError, ExecutionError.relocate, ← index]
    exact .unknown name read' (known.trans unresolved) ne_open ne_close

end Execution

namespace Interpreter

open Execution

/-- That two executions end, whatever with, is no event of a command. -/
theorem relocated_closing {place : Nat → Nat} {base m m' : Machine} {steps steps' : Nat}
    {result result' : Except ExecutionError Unit}
    (related : Machine.Relocated place base m m') :
    Machine.Relocated place base (m.record (closing steps result))
      (m'.record (closing steps' result')) :=
  (related.record_left (isOfCommand_closing steps result)).record_right
    (isOfCommand_closing steps' result')

/-! ## Executions with more steps -/

variable {i j : Interpreter} {code longer : String} {f : ExecutionError → ExecutionError}
  {related : Configuration → Configuration → Prop}

/-- The execution of one program keeps up with that of another: it begins in a related
state, makes one or more steps for each step of the other, and when the other ends it ends
after some more steps, in a related state and with the result that `f` makes of it. -/
structure Outruns (related : Configuration → Configuration → Prop)
    (f : ExecutionError → ExecutionError) (i : Interpreter) (code : String) (j : Interpreter)
    (longer : String) : Prop where
  starts : related (i.initial code) (j.initial longer)
  steps : ∀ c d row after, related c d → Performs code.toList i.registry c (.next row after) →
    ∃ k after', advance (Program.ofString longer) j.registry (k + 1) d = .running after' ∧
      related after after'
  ends : ∀ c d result, related c d → Performs code.toList i.registry c (.halt result c) →
    ∃ k d', advance (Program.ofString longer) j.registry k d = .running d' ∧ related c d' ∧
      Performs longer.toList j.registry d' (.halt (result.mapError f) d')

/-- It comes at least as far. -/
theorem Outruns.exists_reaches (outruns : Outruns related f i code j longer) {n : Nat}
    {c : Configuration} (reached : i.Reaches code n c) :
    ∃ k ≥ n, ∃ d, j.Reaches longer k d ∧ related c d :=
  advance_outruns outruns.steps outruns.starts reached

/-- It ends where the other ends. -/
theorem Outruns.exists_executes (outruns : Outruns related f i code j longer)
    {result : Except ExecutionError Unit} {after : Interpreter}
    (executed : i.Executes code result after) :
    ∃ c d, related c d ∧ after = ⟨c.machine.record (closing c.steps result), i.registry⟩ ∧
      j.Executes longer (result.mapError f)
        ⟨d.machine.record (closing d.steps (result.mapError f)), j.registry⟩ := by
  obtain ⟨n, c, reached, last, rfl⟩ := executes_iff.mp executed
  obtain ⟨k, -, d, follows, still⟩ := outruns.exists_reaches reached
  obtain ⟨m, d', passed, beside, ends⟩ := outruns.ends c d result still last
  have whole : j.Reaches longer (k + m) d' := by rw [Reaches, advance_add follows, passed]
  exact ⟨c, d', beside, rfl, executes_iff.mpr ⟨k + m, d', whole, ends, rfl⟩⟩

/-- Both end, or neither does. -/
theorem Outruns.terminates_iff (outruns : Outruns related f i code j longer) :
    j.Terminates longer ↔ i.Terminates code := by
  constructor
  · contrapose
    intro endless
    apply not_terminates_iff.mpr
    intro n
    obtain ⟨m, later, c, reached⟩ := not_terminates_iff.mp endless n
    obtain ⟨k, more, d, follows, -⟩ := outruns.exists_reaches reached
    exact ⟨k, later.trans more, d, follows⟩
  · rintro ⟨result, after, executed⟩
    obtain ⟨c, d, -, -, ends⟩ := outruns.exists_executes executed
    exact ⟨_, _, ends⟩

end Interpreter

end RingTape
