/-
# The first use of a command

What a name means concerns a run from the first time on that the run comes to the name, and
no sooner. Two registries may differ in one name as they like, by a registration, a removal
or both: until the name is met, the runs with either of them are not merely alike but the
same run. A program that never comes to it, perhaps because it stands in loops that are
always skipped, cannot tell the registries apart at all.

Where the name is met and means nothing, the run ends there and keeps what was done.
-/

import RingTape.Proofs.Command.Registration
import RingTape.Proofs.Execution.CallStack

namespace RingTape

namespace Registry

/-- Registries that agree on every name but one, which custom commands may take. -/
structure AgreesExcept (name : Char) (r r' : Registry) : Prop where
  free : Free name
  resolve_eq : ∀ other, other ≠ name → r'.resolve other = r.resolve other

variable {name : Char} {routine : Routine} {r r' r'' : Registry}

theorem AgreesExcept.symm (agree : AgreesExcept name r r') : AgreesExcept name r' r :=
  ⟨agree.free, fun other ne => (agree.resolve_eq other ne).symm⟩

theorem AgreesExcept.trans (first : AgreesExcept name r r') (second : AgreesExcept name r' r'') :
    AgreesExcept name r r'' :=
  ⟨first.free, fun other ne => (second.resolve_eq other ne).trans (first.resolve_eq other ne)⟩

/-- A registration changes one name only. -/
theorem agreesExcept_of_add (added : r.add name routine = .ok r') : AgreesExcept name r r' := by
  obtain ⟨free, absent, rfl⟩ := exists_put_of_add added
  exact ⟨free, fun other ne => by rw [resolve_put, if_neg ne]⟩

/-- So does a removal. -/
theorem agreesExcept_of_remove (removed : r.remove name = .ok r') : AgreesExcept name r r' := by
  have found := customRoutine?_of_remove removed
  refine ⟨?_, fun other ne => by rw [resolve_eq_or, resolve_eq_or, found, if_neg ne]⟩
  by_contra taken
  have absent : ¬ r.isCustom name := by
    rw [isCustom, customRoutine?_of_not_free taken]
    exact Bool.noConfusion
  rw [remove, if_neg absent] at removed
  cases removed

end Registry

namespace Execution

open Nesting

variable {name : Char} {r r' : Registry} {text : List Char} {program : Program}
  {c : Configuration}

/-- At any other character the step is the same. -/
theorem Performs.of_agree (agree : r.AgreesExcept name r') {outcome : Outcome}
    (elsewhere : text[c.index]? ≠ some name) (performs : Performs text r c outcome) :
    Performs text r' c outcome := by
  have known {other : Char} (read : text[c.index]? = some other) :
      r'.resolve other = r.resolve other := by
    apply agree.resolve_eq
    rintro rfl
    exact elsewhere read
  cases performs with
  | finish ended => exact .finish ended
  | command other routine read resolved =>
    exact .command other routine read ((known read).trans resolved)
  | enter close read found nonzero => exact .enter close read found nonzero
  | skip close read found zero => exact .skip close read found zero
  | unmatchedOpen read alone => exact .unmatchedOpen read alone
  | back header outer read calls => exact .back header outer read calls
  | unmatchedClose read calls => exact .unmatchedClose read calls
  | unknown other read unresolved ne_open ne_close =>
    exact .unknown other read ((known read).trans unresolved) ne_open ne_close

/-- As long as the name is not met, the run is the same. -/
theorem advance_of_agree (agree : r.AgreesExcept name r') {n : Nat}
    (avoids : ∀ k < n, ∀ d, advance program r k c = .running d →
      program.toList[d.index]? ≠ some name) :
    advance program r' n c = advance program r n c := by
  induction n generalizing c with
  | zero => rfl
  | succ n ih =>
    have here : program.toList[c.index]? ≠ some name := avoids 0 (Nat.succ_pos n) c rfl
    obtain ⟨outcome, performs⟩ := exists_performs program.toList r c
    have performs' := performs.of_agree agree here
    cases outcome with
    | next row after =>
      rw [advance_succ_of_next performs, advance_succ_of_next performs']
      apply ih
      intro k lt d run
      refine avoids (k + 1) (Nat.succ_lt_succ lt) d ?_
      rwa [advance_succ_of_next performs]
    | halt result final =>
      obtain rfl := performs.final_eq
      rw [advance_succ_of_halt performs, advance_succ_of_halt performs']

/-- A loop is entered only if the cell is not zero. -/
theorem Performs.nonzero_of_enter {row : Row} {after : Configuration} {close : Nat}
    (performs : Performs text r c (.next row after)) (moved : row.move = .enter close) :
    c.machine.get ≠ 0 := by
  cases performs with
  | enter _ _ _ nonzero => exact nonzero
  | command => cases moved
  | skip => cases moved
  | back => cases moved

end Execution

namespace Interpreter

open Execution Nesting

/-- In none of its first `n` states does an execution stand at a name. -/
def Avoids (i : Interpreter) (code : String) (name : Char) (n : Nat) : Prop :=
  ∀ k < n, ∀ c, i.Reaches code k c → code.toList[c.index]? ≠ some name

/-- The state after `n` steps is the first in which an execution stands at a name. -/
structure FirstUse (i : Interpreter) (code : String) (name : Char) (n : Nat)
    (c : Configuration) : Prop where
  reached : i.Reaches code n c
  read : code.toList[c.index]? = some name
  before : i.Avoids code name n

variable {name : Char} {r r' : Registry} {machine : Machine} {code : String} {n : Nat}

theorem Avoids.mono {i : Interpreter} {k : Nat} (avoids : i.Avoids code name n) (le : k ≤ n) :
    i.Avoids code name k :=
  fun m lt => avoids m (lt.trans_le le)

/-- The first state at the name is the same in both executions, and so are all before it. -/
theorem reaches_iff_of_agree (agree : r.AgreesExcept name r')
    (avoids : Avoids ⟨machine, r⟩ code name n) (c : Configuration) :
    Reaches ⟨machine, r'⟩ code n c ↔ Reaches ⟨machine, r⟩ code n c := by
  unfold Reaches
  rw [show advance (Program.ofString code) r' n (initial ⟨machine, r'⟩ code) =
    advance (Program.ofString code) r n (initial ⟨machine, r⟩ code) from
      advance_of_agree agree avoids]

theorem Avoids.of_agree (agree : r.AgreesExcept name r')
    (avoids : Avoids ⟨machine, r⟩ code name n) : Avoids ⟨machine, r'⟩ code name n :=
  fun k lt c reached =>
    avoids k lt c ((reaches_iff_of_agree agree (avoids.mono lt.le) c).mp reached)

theorem FirstUse.of_agree {c : Configuration} (agree : r.AgreesExcept name r')
    (use : FirstUse ⟨machine, r⟩ code name n c) : FirstUse ⟨machine, r'⟩ code name n c :=
  ⟨(reaches_iff_of_agree agree use.before c).mpr use.reached, use.read, use.before.of_agree agree⟩

/-- An execution that does not come to the name leaves the same machine. -/
theorem execute_of_agree (agree : r.AgreesExcept name r')
    (avoids : Avoids ⟨machine, r⟩ code name n) :
    execute n code ⟨machine, r'⟩ =
      (execute n code ⟨machine, r⟩).map fun ended => (ended.1, ⟨ended.2.machine, r'⟩) := by
  rw [execute_eq, execute_eq,
    show advance (Program.ofString code) r' n (initial ⟨machine, r'⟩ code) =
      advance (Program.ofString code) r n (initial ⟨machine, r⟩ code) from
        advance_of_agree agree avoids]
  cases advance (Program.ofString code) r n (initial ⟨machine, r⟩ code) <;> rfl

/-- A name without a command ends the execution that comes to it. -/
theorem FirstUse.executes {i : Interpreter} {c : Configuration} (use : i.FirstUse code name n c)
    (free : Registry.Free name) (unresolved : i.registry.resolve name = none) :
    i.Executes code (.error (.unknownCommand name c.index))
      ⟨c.machine.record (closing n (.error (.unknownCommand name c.index))), i.registry⟩ := by
  have counted : c.steps = n := (steps_of_advance use.reached).trans (Nat.zero_add n)
  refine executes_iff.mpr ⟨n, c, use.reached, ?_, by rw [counted]⟩
  exact .unknown name use.read unresolved free.ne_loopOpen free.ne_loopClose

/-- A name is not met in loops that are never entered. -/
theorem avoids_of_skipped {i : Interpreter}
    (skipped : ∀ p, code.toList[p]? = some name → ∃ start close,
      Partners code.toList start close ∧ start < p ∧ p < close ∧
        ∀ n c, i.Reaches code n c → c.index = start → c.machine.get = 0) (n : Nat) :
    i.Avoids code name n := by
  intro k _ c reached read
  obtain ⟨start, close, partners, before, after, zero⟩ := skipped c.index read
  have found := (partner_eq_some_iff partners.1).mpr partners
  have member : start ∈ c.calls := by
    refine (mem_pending_iff (nested_of_reaches reached).waiting start).mpr
      ⟨before, partners.1, fun other lt others => ?_⟩
    rw [(partner_eq_some_iff partners.1).mpr others] at found
    cases found
    omega
  obtain ⟨m, -, d, other, passed, at_start, -, entry⟩ := exists_entry_of_mem_calls rfl reached member
  exact entry.nonzero_of_enter rfl (zero m d passed at_start)

/-- Two executions of a program from one machine, with registries that agree except on one
name, are in the same states until the first that stands at the name. If none does, which
is so if the name stands only in loops that are never entered, both end or neither does,
with the same result and the same machine. If one does, and the name has no command in one
of the registries, the execution with that one ends there with what was done so far. -/
theorem execution_conservative (agree : r.AgreesExcept name r') (machine : Machine)
    (code : String) :
    let i : Interpreter := ⟨machine, r⟩
    let j : Interpreter := ⟨machine, r'⟩
    (∀ n, i.Avoids code name n → ∀ c, j.Reaches code n c ↔ i.Reaches code n c) ∧
    (∀ n c, j.FirstUse code name n c ↔ i.FirstUse code name n c) ∧
    ((∀ n, i.Avoids code name n) →
      (j.Terminates code ↔ i.Terminates code) ∧
      ∀ result after result' after', i.Executes code result after →
        j.Executes code result' after' →
        result' = result ∧ after'.machine = after.machine) ∧
    ((∀ p, code.toList[p]? = some name → ∃ start close,
        Partners code.toList start close ∧ start < p ∧ p < close ∧
          ∀ n c, i.Reaches code n c → c.index = start → c.machine.get = 0) →
      ∀ n, i.Avoids code name n) ∧
    ∀ n c, i.FirstUse code name n c →
      (r.resolve name = none →
        i.Executes code (.error (.unknownCommand name c.index))
          ⟨c.machine.record (closing n (.error (.unknownCommand name c.index))), r⟩) ∧
      (r'.resolve name = none →
        j.Executes code (.error (.unknownCommand name c.index))
          ⟨c.machine.record (closing n (.error (.unknownCommand name c.index))), r'⟩) := by
  intro i j
  refine ⟨fun n avoids => reaches_iff_of_agree agree avoids,
    fun n c => ⟨fun use => use.of_agree agree.symm, fun use => use.of_agree agree⟩, ?_,
    avoids_of_skipped, fun n c use => ⟨fun unresolved => ?_, fun unresolved => ?_⟩⟩
  · intro avoids
    have same (fuel : Nat) := execute_of_agree agree (avoids fuel)
    refine ⟨⟨?_, ?_⟩, ?_⟩
    · rintro ⟨result, after, fuel, executed⟩
      rw [same fuel] at executed
      obtain ⟨ended, executed, -⟩ := Option.map_eq_some_iff.mp executed
      exact ⟨ended.1, ended.2, fuel, executed⟩
    · rintro ⟨result, after, fuel, executed⟩
      exact ⟨result, ⟨after.machine, r'⟩, fuel, by rw [same fuel, executed]; rfl⟩
    · rintro result after result' after' ⟨fuel, executed⟩ executed'
      have follows : j.Executes code result ⟨after.machine, r'⟩ :=
        ⟨fuel, by rw [same fuel, executed]; rfl⟩
      obtain ⟨rfl, rfl⟩ := follows.unique executed'
      exact ⟨rfl, rfl⟩
  · exact use.executes agree.free unresolved
  · exact (use.of_agree agree).executes agree.free unresolved

/-- A command is removed and its name given to another one. A program that meets the name
behind a loop, which it skips, comes to the same state with either command, and ends there
in between. -/
theorem execution_conservative_of_replaced :
    let m : Machine := ⟨.blank 2 .byte (by decide), .collecting, .stream [], none, none, [], {}⟩
    ∃ r r' r'' : Registry, Registry.empty.add '*' Stock.double.routine = .ok r ∧
      r.remove '*' = .ok r' ∧ r'.add '*' Stock.clear.routine = .ok r'' ∧
      r.AgreesExcept '*' r' ∧ r.AgreesExcept '*' r'' ∧
      ∃ c after, FirstUse ⟨m, r⟩ "[*]+*" '*' 2 c ∧ FirstUse ⟨m, r''⟩ "[*]+*" '*' 2 c ∧
        Executes ⟨m, r'⟩ "[*]+*" (.error (.unknownCommand '*' 4)) after ∧
        after.machine.get = 1 := by
  intro m
  have free : Registry.Free '*' := ⟨by decide, by decide, by decide⟩
  let r : Registry := Registry.empty.put '*' Stock.double.routine free (by decide)
  obtain ⟨r', removed⟩ : ∃ r', r.remove '*' = .ok r' := ⟨_, rfl⟩
  have gone : r'.customRoutine? '*' = none := Registry.customRoutine?_of_remove removed '*'
  have absent : ¬ r'.isCustom '*' := by simp [Registry.isCustom, gone]
  have removal := Registry.agreesExcept_of_remove removed
  have added : r'.add '*' Stock.clear.routine =
      .ok (r'.put '*' Stock.clear.routine free absent) := Registry.add_of_free free absent
  have replacement := removal.trans (Registry.agreesExcept_of_add added)
  obtain ⟨c, reached, at_name, one⟩ : ∃ c, Reaches ⟨m, r⟩ "[*]+*" 2 c ∧ c.index = 4 ∧
      c.machine.get = 1 := ⟨_, rfl, rfl, rfl⟩
  have avoids : Avoids ⟨m, r⟩ "[*]+*" '*' 2 := by
    intro k lt d passed
    have early : k = 0 ∨ k = 1 := by omega
    rcases early with rfl | rfl
    · obtain rfl : _ = d := Progress.running.inj passed
      exact (by decide : some '[' ≠ some '*')
    · obtain rfl : _ = d := Progress.running.inj passed
      exact (by decide : some '+' ≠ some '*')
  have use : FirstUse ⟨m, r⟩ "[*]+*" '*' 2 c := ⟨reached, by rw [at_name]; rfl, avoids⟩
  obtain ⟨-, uses, -⟩ := execution_conservative replacement m "[*]+*"
  obtain ⟨-, -, -, -, ends⟩ := execution_conservative removal m "[*]+*"
  have unresolved : r'.resolve '*' = none := by
    rw [Registry.resolve_eq_or, gone]
    rfl
  have ended := (ends 2 c use).2 unresolved
  rw [at_name] at ended
  exact ⟨r, r', _, Registry.add_of_free free (by decide), removed, added, removal,
    replacement, c, _, use, (uses 2 c).mpr use, ended, one⟩

end Interpreter

end RingTape
