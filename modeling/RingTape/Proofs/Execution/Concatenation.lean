/-
# Programs one after the other

A run looks ahead in its whole text for the end of a loop and keeps positions of
that text on its stack, so nothing in a step keeps to a part of the text. Still a
part is run inside a longer text as it is run alone, at positions that are moved by
where the part stands: every partner inside the part is one in the longer text as
well. Only where the part ends, or has no partner for a marker, can the rest make a
difference.

When the first of two programs ends well its stack is empty and its index at the
end, so that the longer run is where a run of the second begins.
-/

import RingTape.Proofs.Execution.CallStack
import RingTape.Proofs.Execution.Correspondence

namespace RingTape.Nesting

variable {inner outer : List Char} {n : Nat}

/-- A character of a part is one of the text around it. -/
theorem getElem?_of_part (stands : inner <+: outer.drop n) {index : Nat} {c : Char}
    (read : inner[index]? = some c) : outer[index + n]? = some c := by
  obtain ⟨post, whole⟩ := stands
  have inside := (List.getElem?_eq_some_iff.mp read).1
  rw [Nat.add_comm, ← List.getElem?_drop, ← whole, List.getElem?_append_left inside, read]

/-- Partners in a part are partners in the text around it. -/
theorem Partners.of_part (stands : inner <+: outer.drop n) {start close : Nat}
    (partners : Partners inner start close) : Partners outer (start + n) (close + n) := by
  obtain ⟨opened, closed, before, balanced⟩ := partners
  refine ⟨getElem?_of_part stands opened, getElem?_of_part stands closed,
    Nat.add_lt_add_right before n, ?_⟩
  obtain ⟨post, whole⟩ := stands
  have inside := (List.getElem?_eq_some_iff.mp closed).1
  have between : (outer.take (close + n)).drop (start + n + 1) =
      (inner.take close).drop (start + 1) := by
    rw [Nat.add_right_comm, Nat.add_comm _ n, Nat.add_comm _ n, ← List.drop_drop,
      List.drop_take, Nat.add_sub_cancel_left, ← whole, List.take_append_of_le_length inside.le]
  rwa [between]

theorem partner_of_part (stands : inner <+: outer.drop n) {start close : Nat}
    (opened : inner[start]? = some loopOpen) (found : partner inner start = some close) :
    partner outer (start + n) = some (close + n) :=
  (partner_eq_some_iff (getElem?_of_part stands opened)).mpr
    (((partner_eq_some_iff opened).mp found).of_part stands)

/-- A marker without a partner has none either where the text around ends with the
part. -/
theorem partner_of_end (stands : outer.drop n = inner) {start : Nat}
    (alone : partner inner start = none) : partner outer (start + n) = none := by
  rw [partner, closeAt, Option.map_eq_none_iff] at alone ⊢
  rw [Nat.add_right_comm, Nat.add_comm _ n, ← List.drop_drop, stands]
  exact alone

end RingTape.Nesting

namespace RingTape.Execution

open Nesting

/-- A state of a run of a part and one of a run of the text around it. -/
structure Embedded (n : Nat) (base : Machine) (c d : Configuration) : Prop where
  index : d.index = c.index + n
  calls : d.calls = c.calls.map (· + n)
  machine : Machine.Relocated (· + n) base c.machine d.machine

variable {inner outer : List Char} {registry : Registry} {n : Nat} {base : Machine}
  {c d : Configuration}

/-- The states correspond, at places that lie `n` further. -/
theorem Embedded.corresponds (embedded : Embedded n base c d) :
    Corresponds (· + n) base c d :=
  ⟨embedded.index, embedded.calls, embedded.machine⟩

/-- What is read in the part is read at the place of it. -/
theorem Embedded.getElem? (stands : inner <+: outer.drop n) (embedded : Embedded n base c d)
    {name : Char} (read : inner[c.index]? = some name) :
    outer[d.index]? = some name := by
  rw [embedded.index]
  exact getElem?_of_part stands read

/-- A step in a part is taken in the text around it. -/
theorem Embedded.step (stands : inner <+: outer.drop n) {row : Row} {after : Configuration}
    (embedded : Embedded n base c d) (performs : Performs inner registry c (.next row after)) :
    ∃ row' after', Performs outer registry d (.next row' after') ∧
      Embedded n base after after' := by
  have same (name : Char) (read : inner[c.index]? = some name) :
      outer[d.index]? = some name ∧ registry.resolve name = registry.resolve name :=
    ⟨embedded.getElem? stands read, rfl⟩
  have matched (close : Nat) (opened : inner[c.index]? = some loopOpen)
      (found : partner inner c.index = some close) : partner outer d.index = some (close + n) := by
    rw [embedded.index]
    exact partner_of_part stands opened found
  obtain ⟨row', after', performs', follows, calls, machine⟩ :=
    embedded.corresponds.step same matched performs
  refine ⟨row', after', performs', ?_, calls, machine⟩
  rcases follows with index | ⟨before, index, index'⟩
  · exact index
  · rw [index, index', Nat.add_right_comm]

/-- An error in a part is met in the text around it, unless it is that of a marker
whose partner may follow. -/
theorem Embedded.abort (stands : inner <+: outer.drop n) {e : ExecutionError}
    (embedded : Embedded n base c d) (performs : Performs inner registry c (.halt (.error e) c))
    (not_open : ∀ p, e ≠ .unmatchedOpen p) :
    Performs outer registry d (.halt (.error (e.relocate (· + n))) d) := by
  have calls := embedded.calls
  cases performs with
  | unmatchedOpen => exact absurd rfl (not_open c.index)
  | unmatchedClose read empty =>
    rw [empty, List.map_nil] at calls
    rw [ExecutionError.relocate, ← embedded.index]
    exact .unmatchedClose (embedded.getElem? stands read) calls
  | unknown name read unresolved ne_open ne_close =>
    rw [ExecutionError.relocate, ← embedded.index]
    exact .unknown name (embedded.getElem? stands read) unresolved ne_open ne_close

/-- Where the text around ends with the part, the runs end in the same way. -/
theorem Embedded.halt (stands : outer.drop n = inner) {result : Except ExecutionError Unit}
    (embedded : Embedded n base c d) (performs : Performs inner registry c (.halt result c)) :
    Performs outer registry d (.halt (result.mapError (ExecutionError.relocate (· + n))) d) := by
  have part : inner <+: outer.drop n := stands ▸ List.prefix_rfl
  have same (name : Char) (read : inner[c.index]? = some name) :
      outer[d.index]? = some name ∧ registry.resolve name = registry.resolve name :=
    ⟨embedded.getElem? part read, rfl⟩
  have ends (ended : inner[c.index]? = none) : outer[d.index]? = none := by
    rw [embedded.index, Nat.add_comm, ← List.getElem?_drop, stands, ended]
  have unmatched (_ : inner[c.index]? = some loopOpen) (alone : partner inner c.index = none) :
      partner outer d.index = none := by
    rw [embedded.index]
    exact partner_of_end stands alone
  exact embedded.corresponds.halt same ends unmatched performs

end RingTape.Execution

namespace RingTape.Interpreter

open Execution Nesting

variable {i i' : Interpreter} {first second : String} {c d : Configuration} {n : Nat}

/-- The first of two programs stands at the beginning. -/
theorem prefix_toList_append (first second : String) :
    first.toList <+: (first ++ second).toList.drop 0 := by
  rw [List.drop_zero, String.toList_append]
  exact List.prefix_append _ _

/-- The second of two programs stands where the first one ends. -/
theorem drop_toList_append (first second : String) :
    (first ++ second).toList.drop first.length = second.toList := by
  rw [String.toList_append, ← String.length_toList, List.drop_left]

/-- A run of both programs begins with a run of the first. -/
theorem exists_reaches_append (reached : i.Reaches first n c) :
    ∃ d, i.Reaches (first ++ second) n d ∧ Embedded 0 i.machine c d := by
  have part := prefix_toList_append first second
  have start : Embedded 0 i.machine (i.initial first) (i.initial (first ++ second)) :=
    ⟨rfl, rfl, ((Machine.Relocated.refl _ i.machine).record_left rfl).record_right rfl⟩
  exact advance_follows (fun _ _ _ _ embedded performs => embedded.step part performs) start reached

/-- Where the first program ends well, a run of the second can take over. -/
theorem exists_reaches_second (executed : i.Executes first (.ok ()) i') :
    ∃ n d, i.Reaches (first ++ second) n d ∧
      Embedded first.length i'.machine (i'.initial second) d := by
  obtain ⟨n, c, reached, last, rfl⟩ := executes_iff.mp executed
  obtain ⟨d, follows, embedded⟩ := exists_reaches_append reached
  cases last with
  | finish ended =>
    obtain ⟨at_end, empty⟩ := (nested_of_reaches reached).calls_eq_nil ended
    refine ⟨n, d, follows, ?_, ?_, ?_⟩
    · rw [embedded.index, at_end, String.length_toList]
      exact Nat.add_comm _ _
    · rw [embedded.calls, empty]
      rfl
    · -- At distance zero the two machines agree; what is noted of the end of the first
      -- program and of the beginning of the second is no event of a command.
      have agreeing : Machine.Relocated id i.machine c.machine d.machine := embedded.machine
      exact ((agreeing.record_left rfl).rebase (· + first.length)).record_left rfl

/-- From there on a run of both programs follows one of the second. -/
theorem exists_reaches_of_second (executed : i.Executes first (.ok ()) i') :
    ∃ n, ∀ m c, i'.Reaches second m c →
      ∃ d, i.Reaches (first ++ second) (n + m) d ∧ Embedded first.length i'.machine c d := by
  obtain ⟨n, d, reached, embedded⟩ := exists_reaches_second executed
  refine ⟨n, ?_⟩
  intro m c goes
  have part : second.toList <+: (first ++ second).toList.drop first.length :=
    drop_toList_append first second ▸ List.prefix_rfl
  rw [Reaches, executed.registry_eq] at goes
  have follows : ∃ d', advance (Program.ofString (first ++ second)) i.registry m d = .running d' ∧
      Embedded first.length i'.machine c d' :=
    advance_follows (fun _ _ _ _ embedded performs => embedded.step part performs) embedded goes
  obtain ⟨d', run, still⟩ := follows
  exact ⟨d', by rw [Reaches, advance_add reached, run], still⟩

/-- What the second program comes to, both together come to. -/
theorem exists_executes_append {result : Except ExecutionError Unit} {j : Interpreter}
    (executed : i.Executes first (.ok ()) i') (goes : i'.Executes second result j) :
    ∃ j', i.Executes (first ++ second)
        (result.mapError (ExecutionError.relocate (· + first.length))) j' ∧
      Machine.Relocated (· + first.length) i'.machine j.machine j'.machine := by
  obtain ⟨n, follows⟩ := exists_reaches_of_second executed
  obtain ⟨m, c, reached, last, rfl⟩ := executes_iff.mp goes
  obtain ⟨d, runs, embedded⟩ := follows m c reached
  rw [executed.registry_eq] at last
  have ends := embedded.halt (drop_toList_append first second) last
  exact ⟨_, executes_iff.mpr ⟨n + m, d, runs, ends, rfl⟩, relocated_closing embedded.machine⟩

/-- Both programs together end exactly if the second does. -/
theorem terminates_append_iff (executed : i.Executes first (.ok ()) i') :
    i.Terminates (first ++ second) ↔ i'.Terminates second := by
  constructor
  · contrapose
    intro endless
    obtain ⟨n, follows⟩ := exists_reaches_of_second executed
    apply not_terminates_iff.mpr
    intro k
    obtain ⟨m, later, c, reached⟩ := not_terminates_iff.mp endless k
    obtain ⟨d, runs, -⟩ := follows m c reached
    exact ⟨n + m, Nat.le_add_left_of_le later, d, runs⟩
  · rintro ⟨result, j, goes⟩
    obtain ⟨j', ends, -⟩ := exists_executes_append executed goes
    exact ⟨_, j', ends⟩

/-- An error of the first program is one of both, unless it is that of a marker whose
partner may follow. -/
theorem exists_executes_append_of_error {e : ExecutionError}
    (executed : i.Executes first (.error e) i') (not_open : ∀ p, e ≠ .unmatchedOpen p) :
    ∃ j, i.Executes (first ++ second) (.error e) j ∧ Machine.Agrees i'.machine j.machine := by
  obtain ⟨n, c, reached, last, rfl⟩ := executes_iff.mp executed
  obtain ⟨d, follows, embedded⟩ := exists_reaches_append reached
  have ends := embedded.abort (prefix_toList_append first second) last not_open
  have same : e.relocate (· + 0) = e := by cases e <;> rfl
  rw [same] at ends
  have agreeing : Machine.Relocated id i.machine c.machine d.machine := embedded.machine
  exact ⟨_, executes_iff.mpr ⟨n, d, follows, ends, rfl⟩, (relocated_closing agreeing).agrees⟩

/-- Executing two programs as one is executing them in turn. If the first ends well,
the whole does as the second does from there, at positions that are moved by the
length of the first, and what was reported before comes first. If the first ends at a
character that is no command or at a closing marker, so does the whole; if it does
not end, neither does the whole. -/
theorem execute_append (i : Interpreter) (first second : String) :
    (∀ i', i.Executes first (.ok ()) i' →
      (i.Terminates (first ++ second) ↔ i'.Terminates second) ∧
      ∀ result j result' j', i'.Executes second result j →
        i.Executes (first ++ second) result' j' →
        result' = result.mapError (ExecutionError.relocate (· + first.length)) ∧
        Machine.Relocated (· + first.length) i'.machine j.machine j'.machine ∧
        j'.registry = j.registry) ∧
    (∀ e i', i.Executes first (.error e) i' → (∀ p, e ≠ .unmatchedOpen p) →
      ∃ j, i.Executes (first ++ second) (.error e) j ∧ Machine.Agrees i'.machine j.machine ∧
        j.registry = i'.registry) ∧
    (¬ i.Terminates first → ¬ i.Terminates (first ++ second)) := by
  refine ⟨?_, ?_, ?_⟩
  · intro i' executed
    refine ⟨terminates_append_iff executed, ?_⟩
    intro result j result' j' goes whole
    obtain ⟨other, ends, related⟩ := exists_executes_append executed goes
    obtain ⟨rfl, rfl⟩ := ends.unique whole
    exact ⟨rfl, related, by rw [whole.registry_eq, goes.registry_eq, executed.registry_eq]⟩
  · intro e i' executed not_open
    obtain ⟨j, ends, agrees⟩ := exists_executes_append_of_error executed not_open
    exact ⟨j, ends, agrees, by rw [ends.registry_eq, executed.registry_eq]⟩
  · intro endless
    apply not_terminates_iff.mpr
    intro n
    obtain ⟨m, later, c, reached⟩ := not_terminates_iff.mp endless n
    obtain ⟨d, follows, -⟩ := exists_reaches_append reached
    exact ⟨m, later, d, follows⟩

end RingTape.Interpreter
