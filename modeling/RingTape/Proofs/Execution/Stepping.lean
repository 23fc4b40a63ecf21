/-
# Steps, runs and executions

One relation lists everything that a step can be, with what the text, the stack and
the cell must be for it. The step of a run is the one outcome that it allows, so
every law of runs is proved by going through its cases and never by opening the
step itself.

A run is followed by the number of its steps. Whatever one step keeps, a run keeps;
and where each step of one run can be matched by a step of another, the second
follows the first for as long as the first goes on. An execution terminates if its
run halts for some number of steps, and then with one answer only.
-/

import Mathlib.Order.Basic
import RingTape.Interpreter
import RingTape.Proofs.Machine.Relocation
import RingTape.Proofs.Program.Nesting

namespace RingTape.Execution

open Nesting

namespace Configuration

/-- The account of a step from `c` to `after`. -/
def row (c : Configuration) (name : Char) (move : Move) (after : Configuration) : Row :=
  { step := c.steps, index := c.index, pointer := c.machine.tape.pointer,
    cell := c.machine.get, instruction := name, move,
    pointerAfter := after.machine.tape.pointer, cellAfter := after.machine.get }

/-- The state after a command. -/
def performed (c : Configuration) (routine : Routine) : Configuration :=
  ⟨c.index + 1, c.calls, c.steps + 1, c.machine.performAt c.index routine⟩

/-- The state in a loop that was entered. -/
def entered (c : Configuration) (close : Nat) : Configuration :=
  ⟨c.index + 1, c.index :: c.calls, c.steps + 1, c.machine.record (.loopEntered c.index close)⟩

/-- The state behind a loop that was skipped. -/
def skipped (c : Configuration) (close : Nat) : Configuration :=
  ⟨close + 1, c.calls, c.steps + 1, c.machine.record (.loopSkipped c.index close)⟩

/-- The state back at the header of a loop. -/
def returned (c : Configuration) (header : Nat) (outer : List Nat) : Configuration :=
  ⟨header, outer, c.steps + 1, c.machine⟩

end Configuration

/-- What one step can be. -/
inductive Performs (text : List Char) (registry : Registry) (c : Configuration) : Outcome → Prop
  | finish (ended : text[c.index]? = none) : Performs text registry c (.halt (.ok ()) c)
  | command (name : Char) (routine : Routine) (read : text[c.index]? = some name)
      (resolved : registry.resolve name = some routine) :
      Performs text registry c
        (.next (c.row name .command (c.performed routine)) (c.performed routine))
  | enter (close : Nat) (read : text[c.index]? = some loopOpen)
      (found : partner text c.index = some close) (nonzero : c.machine.get ≠ 0) :
      Performs text registry c
        (.next (c.row loopOpen (.enter close) (c.entered close)) (c.entered close))
  | skip (close : Nat) (read : text[c.index]? = some loopOpen)
      (found : partner text c.index = some close) (zero : c.machine.get = 0) :
      Performs text registry c
        (.next (c.row loopOpen (.skip close) (c.skipped close)) (c.skipped close))
  | unmatchedOpen (read : text[c.index]? = some loopOpen)
      (alone : partner text c.index = none) :
      Performs text registry c (.halt (.error (.unmatchedOpen c.index)) c)
  | back (header : Nat) (outer : List Nat) (read : text[c.index]? = some loopClose)
      (calls : c.calls = header :: outer) :
      Performs text registry c
        (.next (c.row loopClose (.back header) (c.returned header outer))
          (c.returned header outer))
  | unmatchedClose (read : text[c.index]? = some loopClose) (calls : c.calls = []) :
      Performs text registry c (.halt (.error (.unmatchedClose c.index)) c)
  | unknown (name : Char) (read : text[c.index]? = some name)
      (unresolved : registry.resolve name = none) (ne_open : name ≠ loopOpen)
      (ne_close : name ≠ loopClose) :
      Performs text registry c (.halt (.error (.unknownCommand name c.index)) c)

variable {program : Program} {registry : Registry} {c : Configuration}

/-- The step is what the cases say. -/
theorem Performs.step_eq {outcome : Outcome}
    (performs : Performs program.toList registry c outcome) :
    step program registry c = outcome := by
  obtain ⟨index, calls, steps, machine⟩ := c
  cases performs with
  | finish ended =>
    rw [Array.getElem?_toList] at ended
    simp only [step, ended]
  | command name routine read resolved =>
    rw [Array.getElem?_toList] at read
    simp only [step, read, resolved]
    rfl
  | enter close read found nonzero =>
    rw [Array.getElem?_toList] at read
    rw [← matchingClose_eq_partner] at found
    simp only [step, read, Registry.resolve_loopOpen, if_pos, found, if_pos nonzero]
    rfl
  | skip close read found zero =>
    rw [Array.getElem?_toList] at read
    rw [← matchingClose_eq_partner] at found
    simp only [step, read, Registry.resolve_loopOpen, if_pos, found,
      if_neg (not_not_intro zero)]
    rfl
  | unmatchedOpen read alone =>
    rw [Array.getElem?_toList] at read
    rw [← matchingClose_eq_partner] at alone
    simp only [step, read, Registry.resolve_loopOpen, if_pos, alone]
  | back header outer read calls_eq =>
    rw [Array.getElem?_toList] at read
    obtain rfl := calls_eq
    simp only [step, read, Registry.resolve_loopClose, if_neg loopOpen_ne_loopClose.symm, if_pos]
    rfl
  | unmatchedClose read calls_eq =>
    rw [Array.getElem?_toList] at read
    obtain rfl := calls_eq
    simp only [step, read, Registry.resolve_loopClose, if_neg loopOpen_ne_loopClose.symm, if_pos]
  | unknown name read unresolved ne_open ne_close =>
    rw [Array.getElem?_toList] at read
    simp only [step, read, unresolved, if_neg ne_open, if_neg ne_close]

/-- Some case applies. -/
theorem exists_performs (text : List Char) (registry : Registry) (c : Configuration) :
    ∃ outcome, Performs text registry c outcome := by
  cases read : text[c.index]? with
  | none => exact ⟨_, .finish read⟩
  | some name =>
    cases resolved : registry.resolve name with
    | some routine => exact ⟨_, .command name routine read resolved⟩
    | none =>
      by_cases opened : name = loopOpen
      · subst opened
        cases found : partner text c.index with
        | none => exact ⟨_, .unmatchedOpen read found⟩
        | some close =>
          rcases eq_or_ne c.machine.get 0 with zero | nonzero
          · exact ⟨_, .skip close read found zero⟩
          · exact ⟨_, .enter close read found nonzero⟩
      · by_cases closed : name = loopClose
        · subst closed
          cases calls : c.calls with
          | nil => exact ⟨_, .unmatchedClose read calls⟩
          | cons header outer => exact ⟨_, .back header outer read calls⟩
        · exact ⟨_, .unknown name read resolved opened closed⟩

/-- The cases and the step are the same. -/
theorem performs_iff {outcome : Outcome} :
    Performs program.toList registry c outcome ↔ step program registry c = outcome := by
  constructor
  · exact Performs.step_eq
  · intro stepped
    obtain ⟨other, performs⟩ := exists_performs program.toList registry c
    rwa [← stepped, performs.step_eq]

/-- A step that ends the run ends it where it is. -/
theorem Performs.final_eq {text : List Char} {result : Except ExecutionError Unit}
    {final : Configuration} (performs : Performs text registry c (.halt result final)) :
    final = c := by
  cases performs <;> rfl

/-! ## Runs -/

theorem advance_succ_of_next {n : Nat} {row : Row} {after : Configuration}
    (performs : Performs program.toList registry c (.next row after)) :
    advance program registry (n + 1) c = advance program registry n after := by
  rw [advance, performs.step_eq]

theorem advance_succ_of_halt {n : Nat} {result : Except ExecutionError Unit}
    (performs : Performs program.toList registry c (.halt result c)) :
    advance program registry (n + 1) c = .halted result c := by
  rw [advance, performs.step_eq]

/-- A run that goes on after its first step took one. -/
theorem exists_first_step {n : Nat} {last : Configuration}
    (run : advance program registry (n + 1) c = .running last) :
    ∃ row after, Performs program.toList registry c (.next row after) ∧
      advance program registry n after = .running last := by
  obtain ⟨outcome, performs⟩ := exists_performs program.toList registry c
  cases outcome with
  | next row after =>
    rw [advance_succ_of_next performs] at run
    exact ⟨row, after, performs, run⟩
  | halt result final =>
    obtain rfl := performs.final_eq
    rw [advance_succ_of_halt performs] at run
    cases run

/-- A run can be cut wherever it is still going on. -/
theorem advance_add {n : Nat} {middle : Configuration}
    (run : advance program registry n c = .running middle) (m : Nat) :
    advance program registry (n + m) c = advance program registry m middle := by
  induction n generalizing c with
  | zero =>
    cases run
    rw [Nat.zero_add]
  | succ n ih =>
    rw [Nat.add_right_comm]
    rw [advance] at run ⊢
    split at run
    · exact ih run
    · cases run

/-- The state after one step more is where a step led from the state before. -/
theorem exists_last_step {n : Nat} {last : Configuration}
    (run : advance program registry (n + 1) c = .running last) :
    ∃ before row, advance program registry n c = .running before ∧
      Performs program.toList registry before (.next row last) := by
  induction n generalizing c with
  | zero =>
    obtain ⟨row, after, performs, rest⟩ := exists_first_step run
    cases rest
    exact ⟨c, row, rfl, performs⟩
  | succ n ih =>
    obtain ⟨row, after, performs, rest⟩ := exists_first_step run
    obtain ⟨before, lastRow, reached, stepped⟩ := ih rest
    exact ⟨before, lastRow, by rwa [advance_succ_of_next performs], stepped⟩

/-- A run that has halted stays so. -/
theorem advance_add_of_halted {n : Nat} {result : Except ExecutionError Unit}
    {final : Configuration} (run : advance program registry n c = .halted result final) (m : Nat) :
    advance program registry (n + m) c = .halted result final := by
  induction n generalizing c with
  | zero => cases run
  | succ n ih =>
    rw [Nat.add_right_comm]
    rw [advance] at run ⊢
    split at run
    · exact ih run
    · exact run

/-- A run has halted if one of its states was the last. -/
theorem advance_eq_halted_iff {n : Nat} {result : Except ExecutionError Unit}
    {final : Configuration} :
    advance program registry n c = .halted result final ↔
      ∃ k < n, advance program registry k c = .running final ∧
        Performs program.toList registry final (.halt result final) := by
  constructor
  · intro run
    induction n generalizing c with
    | zero => cases run
    | succ n ih =>
      obtain ⟨outcome, performs⟩ := exists_performs program.toList registry c
      cases outcome with
      | next row after =>
        rw [advance_succ_of_next performs] at run
        obtain ⟨k, lt, reached, last⟩ := ih run
        exact ⟨k + 1, by omega, by rwa [advance_succ_of_next performs], last⟩
      | halt other last =>
        obtain rfl := performs.final_eq
        rw [advance_succ_of_halt performs] at run
        cases run
        exact ⟨0, Nat.succ_pos n, rfl, performs⟩
  · rintro ⟨k, lt, reached, last⟩
    obtain ⟨m, rfl⟩ := Nat.exists_eq_add_of_lt lt
    rw [Nat.add_assoc, advance_add reached, advance_succ_of_halt last]

/-- One step more ends a run at its last state. -/
theorem halted_of_reaches {n : Nat} {result : Except ExecutionError Unit} {final : Configuration}
    (reached : advance program registry n c = .running final)
    (last : Performs program.toList registry final (.halt result final)) :
    advance program registry (n + 1) c = .halted result final :=
  advance_eq_halted_iff.mpr ⟨n, Nat.lt_succ_self n, reached, last⟩

/-- However many steps are allowed, a run halts in one way only. -/
theorem halted_unique {n m : Nat} {first second : Except ExecutionError Unit}
    {one other : Configuration} (run : advance program registry n c = .halted first one)
    (again : advance program registry m c = .halted second other) :
    first = second ∧ one = other := by
  have longer := advance_add_of_halted run m
  rw [Nat.add_comm, advance_add_of_halted again n] at longer
  cases longer
  exact ⟨rfl, rfl⟩

/-- What is left of a run that halts, from a state that it passes. -/
theorem exists_rest {n m : Nat} {middle final : Configuration}
    {result : Except ExecutionError Unit} (passed : advance program registry n c = .running middle)
    (run : advance program registry m c = .halted result final) :
    ∃ left, m = n + left ∧ advance program registry left middle = .halted result final := by
  rcases Nat.le_total n m with le | le
  · obtain ⟨left, rfl⟩ := Nat.exists_eq_add_of_le le
    exact ⟨left, rfl, by rwa [advance_add passed] at run⟩
  · -- A run that has halted passes no state any more.
    obtain ⟨more, rfl⟩ := Nat.exists_eq_add_of_le le
    rw [advance_add_of_halted run] at passed
    cases passed

/-- The same for the state after one step. -/
theorem exists_rest_of_next {m : Nat} {row : Row} {after final : Configuration}
    {result : Except ExecutionError Unit}
    (performs : Performs program.toList registry c (.next row after))
    (run : advance program registry m c = .halted result final) :
    ∃ left, m = 1 + left ∧ advance program registry left after = .halted result final := by
  have passed : advance program registry (0 + 1) c = .running after := by
    rw [advance_succ_of_next performs, advance]
  exact exists_rest passed run

/-- What every step keeps, a run keeps. -/
theorem invariant_of_advance {invariant : Configuration → Prop}
    (kept : ∀ c row after, invariant c → Performs program.toList registry c (.next row after) →
      invariant after)
    {n : Nat} {middle : Configuration} (holds : invariant c)
    (run : advance program registry n c = .running middle) : invariant middle := by
  induction n generalizing c with
  | zero =>
    cases run
    exact holds
  | succ n ih =>
    obtain ⟨row, after, performs, rest⟩ := exists_first_step run
    exact ih (kept c row after holds performs) rest

/-- The number of a step is the number of steps before it. -/
theorem steps_of_advance {n : Nat} {last : Configuration}
    (run : advance program registry n c = .running last) : last.steps = c.steps + n := by
  induction n generalizing last with
  | zero =>
    cases run
    rfl
  | succ n ih =>
    obtain ⟨before, row, reached, performs⟩ := exists_last_step run
    have counted : last.steps = before.steps + 1 := by cases performs <;> rfl
    rw [counted, ih reached, Nat.add_assoc]

/-- The state that a run has come to. -/
def Progress.state : Progress → Configuration
  | .running state => state
  | .halted _ final => final

/-- What every step keeps, and no writing to the journal disturbs, a traced run keeps
whatever the tracer does. -/
theorem invariant_of_advanceTraced {ω : Type} {tracer : Tracer ω}
    {invariant : Configuration → Prop}
    (kept : ∀ c row after, invariant c → Performs program.toList registry c (.next row after) →
      invariant after)
    (apart : ∀ (c : Configuration) (journal : Journal), invariant c →
      invariant { c with machine := { c.machine with journal } })
    (n : Nat) (w : ω) (holds : invariant c) :
    invariant (advanceTraced tracer program registry n c w).1.state := by
  induction n generalizing c w with
  | zero => exact holds
  | succ n ih =>
    obtain ⟨outcome, performs⟩ := exists_performs program.toList registry c
    rw [advanceTraced, performs.step_eq]
    cases outcome with
    | next row after => exact ih _ (apart after _ (kept c row after holds performs))
    | halt result final =>
      obtain rfl := performs.final_eq
      exact holds

/-- If every step of one run is matched by a step of another, the second run follows
the first as long as that goes on. -/
theorem advance_follows {other : Program} {others : Registry}
    {related : Configuration → Configuration → Prop}
    (matched : ∀ c d row after, related c d →
      Performs program.toList registry c (.next row after) →
      ∃ row' after', Performs other.toList others d (.next row' after') ∧ related after after')
    {n : Nat} {d middle : Configuration} (start : related c d)
    (run : advance program registry n c = .running middle) :
    ∃ middle', advance other others n d = .running middle' ∧ related middle middle' := by
  induction n generalizing c d with
  | zero =>
    cases run
    exact ⟨d, rfl, start⟩
  | succ n ih =>
    obtain ⟨row, after, performs, rest⟩ := exists_first_step run
    obtain ⟨row', after', follows, still⟩ := matched c d row after start performs
    rw [advance_succ_of_next follows]
    exact ih still rest

/-- If every step of one run is matched by one or more steps of another, the second run
goes at least as far as the first. -/
theorem advance_outruns {other : Program} {others : Registry}
    {related : Configuration → Configuration → Prop}
    (matched : ∀ c d row after, related c d →
      Performs program.toList registry c (.next row after) →
      ∃ k after', advance other others (k + 1) d = .running after' ∧ related after after')
    {n : Nat} {d middle : Configuration} (start : related c d)
    (run : advance program registry n c = .running middle) :
    ∃ m ≥ n, ∃ middle', advance other others m d = .running middle' ∧ related middle middle' := by
  induction n generalizing c d with
  | zero =>
    cases run
    exact ⟨0, le_rfl, d, rfl, start⟩
  | succ n ih =>
    obtain ⟨row, after, performs, rest⟩ := exists_first_step run
    obtain ⟨k, after', follows, still⟩ := matched c d row after start performs
    obtain ⟨m, enough, middle', later, related'⟩ := ih still rest
    exact ⟨k + 1 + m, by omega, middle', by rw [advance_add follows, later], related'⟩

end RingTape.Execution

namespace RingTape.Interpreter

open Execution

/-! ## Executions -/

/-- An execution that ends, with its result and the interpreter it leaves behind. -/
def Executes (i : Interpreter) (code : String) (result : Except ExecutionError Unit)
    (after : Interpreter) : Prop :=
  ∃ fuel, i.execute fuel code = some (result, after)

/-- The execution of a program ends. -/
def Terminates (i : Interpreter) (code : String) : Prop :=
  ∃ result after, i.Executes code result after

/-- The state in which the execution of a program begins. -/
def initial (i : Interpreter) (code : String) : Configuration :=
  .start (start i.machine (Program.ofString code))

/-- The execution of a program is in state `c` after `n` steps. -/
def Reaches (i : Interpreter) (code : String) (n : Nat) (c : Configuration) : Prop :=
  advance (Program.ofString code) i.registry n (i.initial code) = .running c

/-- A traced execution that ends, with what it leaves with the tracer. -/
def ExecutesTraced {ω : Type} (tracer : Tracer ω) (i : Interpreter) (code : String) (w : ω)
    (result : Except ExecutionError Unit) (after : Interpreter) (w' : ω) : Prop :=
  ∃ fuel, i.executeTraced tracer fuel code w = some (result, after, w')

/-- The traced execution of a program ends. -/
def TerminatesTraced {ω : Type} (tracer : Tracer ω) (i : Interpreter) (code : String) (w : ω) :
    Prop :=
  ∃ result after w', i.ExecutesTraced tracer code w result after w'

/-- The machine and the tracer after the header of the table, when a traced execution
begins. -/
def begun {ω : Type} (tracer : Tracer ω) (i : Interpreter) (code : String) (w : ω) :
    Machine × ω :=
  tracer.begin (start i.machine (Program.ofString code)) w

/-- The traced execution of a program is in state `c`, and the tracer in state `w'`, after
`n` steps. -/
def ReachesTraced {ω : Type} (tracer : Tracer ω) (i : Interpreter) (code : String) (w : ω)
    (n : Nat) (c : Configuration) (w' : ω) : Prop :=
  advanceTraced tracer (Program.ofString code) i.registry n
    (.start (i.begun tracer code w).1) (i.begun tracer code w).2 = (.running c, w')

@[simp] theorem toList_ofString (code : String) : (Program.ofString code).toList = code.toList :=
  rfl

variable {i after : Interpreter} {code : String} {result : Except ExecutionError Unit}

theorem execute_eq (i : Interpreter) (fuel : Nat) (code : String) :
    i.execute fuel code =
      finish i.registry (advance (Program.ofString code) i.registry fuel (i.initial code)) :=
  rfl

theorem executeTraced_eq {ω : Type} (tracer : Tracer ω) (i : Interpreter) (fuel : Nat)
    (code : String) (w : ω) :
    i.executeTraced tracer fuel code w =
      (finish i.registry (advanceTraced tracer (Program.ofString code) i.registry fuel
        (.start (i.begun tracer code w).1) (i.begun tracer code w).2).1).map fun ended =>
          (ended.1, ended.2, (advanceTraced tracer (Program.ofString code) i.registry fuel
            (.start (i.begun tracer code w).1) (i.begun tracer code w).2).2) :=
  rfl

/-- An execution ends with the first state whose step ends it. -/
theorem executes_iff :
    i.Executes code result after ↔
      ∃ n c, i.Reaches code n c ∧ Performs code.toList i.registry c (.halt result c) ∧
        after = ⟨c.machine.record (closing c.steps result), i.registry⟩ := by
  constructor
  · rintro ⟨fuel, executed⟩
    rw [execute_eq] at executed
    cases run : advance (Program.ofString code) i.registry fuel (i.initial code) with
    | running state =>
      rw [run] at executed
      cases executed
    | halted result final =>
      rw [run] at executed
      cases executed
      obtain ⟨n, -, reached, last⟩ := advance_eq_halted_iff.mp run
      exact ⟨n, final, reached, last, rfl⟩
  · rintro ⟨n, c, reached, last, rfl⟩
    exact ⟨n + 1, by rw [execute_eq, halted_of_reaches reached last, finish]⟩

/-- A program goes on for ever if it is still running after more steps than any number. -/
theorem not_terminates_iff :
    ¬ i.Terminates code ↔ ∀ n, ∃ m ≥ n, ∃ c, i.Reaches code m c := by
  constructor
  · intro endless n
    cases run : advance (Program.ofString code) i.registry n (i.initial code) with
    | running c => exact ⟨n, le_rfl, c, run⟩
    | halted result final =>
      exact absurd ⟨result, _, n, by rw [execute_eq, run, finish]⟩ endless
  · rintro endless ⟨result, after, executed⟩
    obtain ⟨n, c, reached, last, -⟩ := executes_iff.mp executed
    obtain ⟨m, later, d, run⟩ := endless (n + 1)
    obtain ⟨more, rfl⟩ := Nat.exists_eq_add_of_le later
    rw [Reaches, advance_add_of_halted (halted_of_reaches reached last)] at run
    cases run

/-- An execution leaves the commands as they are. -/
theorem Executes.registry_eq (executed : i.Executes code result after) :
    after.registry = i.registry := by
  obtain ⟨_, _, -, -, rfl⟩ := executes_iff.mp executed
  rfl

/-- The event that ends an execution is none of a command. -/
theorem isOfCommand_closing (steps : Nat) (result : Except ExecutionError Unit) :
    (closing steps result).isOfCommand = false := by
  cases result <;> rfl

/-- An execution ends in one way only. -/
theorem Executes.unique {other : Except ExecutionError Unit} {after' : Interpreter}
    (one : i.Executes code result after) (two : i.Executes code other after') :
    result = other ∧ after = after' := by
  obtain ⟨n, c, reached, last, rfl⟩ := executes_iff.mp one
  obtain ⟨m, d, reached', last', rfl⟩ := executes_iff.mp two
  obtain ⟨rfl, rfl⟩ :=
    halted_unique (halted_of_reaches reached last) (halted_of_reaches reached' last')
  exact ⟨rfl, rfl⟩

end RingTape.Interpreter
