/-
# The stack of a run is the nesting of its text

A run finds the end of a loop by counting forward and its beginning by taking a
position off its stack, and nothing but this module says that the two belong
together. In every state of a run the stack holds just the markers of the text
before the index that are still open there, and each of them has a partner. This
is kept by all four kinds of step: a skip jumps over a balanced part of the text,
and going back to a header leaves what was open when the header was first reached.
-/

import RingTape.Proofs.Execution.Stepping

namespace RingTape.Execution

open Nesting

/-- What holds of every state of a run: it has not passed the end of the text, the
scan of the text up to the index gives its stack, and every loop on the stack will
be closed. -/
structure Nested (text : List Char) (c : Configuration) : Prop where
  inside : c.index ≤ text.length
  waiting : pending text c.index = some c.calls
  matched : ∀ start ∈ c.calls, (partner text start).isSome

variable {text : List Char} {registry : Registry} {c : Configuration}

theorem lt_length_of_read {index : Nat} {name : Char} (read : text[index]? = some name) :
    index < text.length :=
  (List.getElem?_eq_some_iff.mp read).1

/-- A character that resolves is no loop marker. -/
theorem ne_marker_of_resolve {name : Char} {routine : Routine}
    (resolved : registry.resolve name = some routine) : name ≠ loopOpen ∧ name ≠ loopClose := by
  constructor
  · rintro rfl
    rw [Registry.resolve_loopOpen] at resolved
    cases resolved
  · rintro rfl
    rw [Registry.resolve_loopClose] at resolved
    cases resolved

/-- One step keeps the nesting. -/
theorem Nested.step {row : Row} {after : Configuration} (nested : Nested text c)
    (performs : Performs text registry c (.next row after)) : Nested text after := by
  obtain ⟨inside, waiting, matched⟩ := nested
  cases performs with
  | command name routine read resolved =>
    obtain ⟨ne_open, ne_close⟩ := ne_marker_of_resolve resolved
    have passed : pending text (c.index + 1) = pending text c.index := by
      apply pending_succ_of_other
      · simpa [read] using ne_open
      · simpa [read] using ne_close
    exact ⟨lt_length_of_read read, passed.trans waiting, matched⟩
  | enter close read found nonzero =>
    have closed : ∀ start ∈ c.index :: c.calls, (partner text start).isSome := by
      intro start member
      rcases List.mem_cons.mp member with rfl | outer
      · rw [found]
        rfl
      · exact matched start outer
    exact ⟨lt_length_of_read read, pending_succ_of_open read waiting, closed⟩
  | skip close read found zero =>
    obtain ⟨-, closed, -⟩ := (partner_eq_some_iff read).mp found
    exact ⟨lt_length_of_read closed, pending_skip waiting read found, matched⟩
  | back header outer read calls =>
    rw [calls] at waiting matched
    obtain ⟨before, -, below⟩ := pending_cons waiting
    exact ⟨before.le.trans inside, below,
      fun start member => matched start (List.mem_cons_of_mem _ member)⟩

/-- A run starts with nothing open. -/
theorem nested_initial (i : Interpreter) (code : String) :
    Nested code.toList (i.initial code) :=
  ⟨Nat.zero_le _, rfl, fun _ member => by cases member⟩

/-- Every state of a run is nested as its text is. -/
theorem nested_of_reaches {i : Interpreter} {code : String} {n : Nat}
    (reached : i.Reaches code n c) : Nested code.toList c :=
  invariant_of_advance (fun _ _ _ nested performs => nested.step performs)
    (nested_initial i code) reached

/-- The partner of a marker on the stack does not come before the index. -/
theorem Nested.exists_partner {start : Nat} (nested : Nested text c) (member : start ∈ c.calls) :
    ∃ close, partner text start = some close ∧ c.index ≤ close := by
  obtain ⟨close, found⟩ := Option.isSome_iff_exists.mp (nested.matched start member)
  exact ⟨close, found, le_of_partner nested.waiting member found⟩

/-- Where the text ends no loop is open any more. -/
theorem Nested.calls_eq_nil (nested : Nested text c) (ended : text[c.index]? = none) :
    c.index = text.length ∧ c.calls = [] := by
  have at_end : c.index = text.length :=
    Nat.le_antisymm nested.inside (List.getElem?_eq_none_iff.mp ended)
  have none_open : ∀ start, start ∉ c.calls := by
    intro start member
    obtain ⟨close, found, later⟩ := nested.exists_partner member
    have opened := ((mem_pending_iff nested.waiting start).mp member).2.1
    obtain ⟨-, closed, -⟩ := (partner_eq_some_iff opened).mp found
    have inside := lt_length_of_read closed
    rw [← at_end] at inside
    exact absurd later (Nat.not_le.mpr inside)
  exact ⟨at_end, List.eq_nil_iff_forall_not_mem.mpr none_open⟩

/-- A closing marker is the partner of the header it goes back to. -/
theorem Nested.partner_header {header : Nat} {outer : List Nat} (nested : Nested text c)
    (calls : c.calls = header :: outer) (read : text[c.index]? = some loopClose) :
    text[header]? = some loopOpen ∧ partner text header = some c.index := by
  have waiting := nested.waiting
  rw [calls] at waiting
  exact ⟨(pending_cons waiting).2.1, partner_of_top waiting read⟩

/-- Every loop on the stack was entered at an earlier step, and its partner was found
then. -/
theorem exists_entry_of_mem_calls {program : Program} {first : Configuration} {n start : Nat}
    (empty : first.calls = []) (run : advance program registry n first = .running c)
    (member : start ∈ c.calls) :
    ∃ k < n, ∃ d close, advance program registry k first = .running d ∧ d.index = start ∧
      partner program.toList start = some close ∧
      Performs program.toList registry d
        (.next (d.row loopOpen (.enter close) (d.entered close)) (d.entered close)) := by
  induction n generalizing c with
  | zero =>
    cases run
    rw [empty] at member
    cases member
  | succ n ih =>
    obtain ⟨d, row, reached, performs⟩ := exists_last_step run
    have earlier (before : start ∈ d.calls) :
        ∃ k < n + 1, ∃ d close, advance program registry k first = .running d ∧
          d.index = start ∧ partner program.toList start = some close ∧
          Performs program.toList registry d
            (.next (d.row loopOpen (.enter close) (d.entered close)) (d.entered close)) := by
      obtain ⟨k, lt, rest⟩ := ih reached before
      exact ⟨k, by omega, rest⟩
    cases performs with
    | command => exact earlier member
    | skip => exact earlier member
    | back header outer read calls =>
      exact earlier (calls ▸ List.mem_cons_of_mem _ member)
    | enter close read found nonzero =>
      rcases List.mem_cons.mp member with rfl | before
      · exact ⟨n, Nat.lt_succ_self n, d, close, reached, rfl, found,
          .enter close read found nonzero⟩
      · exact earlier before

end RingTape.Execution

namespace RingTape.Interpreter

open Execution Nesting

/-- How deep the text is nested at an index. -/
def depth (text : List Char) (index : Nat) : Nat :=
  opens (text.take index) - closes (text.take index)

/-- In every state of an execution the stack lists the markers that are open at the
index, of which there are as many as the text is nested deep there. A closing marker
goes back to its partner, which announced it when the loop was entered. No marker is
found unmatched after its loop was entered, and nothing is open when all went well. -/
theorem calls_reverse_eq_unclosed (i : Interpreter) (code : String) :
    (∀ n c, i.Reaches code n c →
      c.calls.reverse = unclosed code.toList c.index ∧
      GuardedTo code.toList c.index ∧
      c.calls.length = depth code.toList c.index ∧
      ∀ header row after, step (Program.ofString code) i.registry c = .next row after →
        row.move = .back header →
        c.calls = header :: after.calls ∧ after.index = header ∧
        code.toList[header]? = some loopOpen ∧
        (Program.ofString code).findClose header = .ok c.index ∧
        ∃ k < n, ∃ d entry inside, i.Reaches code k d ∧ d.index = header ∧
          step (Program.ofString code) i.registry d = .next entry inside ∧
          entry.move = .enter c.index) ∧
    (∀ n p final,
      advance (Program.ofString code) i.registry n (i.initial code) =
        .halted (.error (.unmatchedOpen p)) final →
      ∀ k d row after close, i.Reaches code k d →
        step (Program.ofString code) i.registry d = .next row after →
        row.move = .enter close → d.index ≠ p) ∧
    ∀ n final,
      advance (Program.ofString code) i.registry n (i.initial code) = .halted (.ok ()) final →
      final.calls = [] := by
  refine ⟨?_, ?_, ?_⟩
  · intro n c reached
    have nested := nested_of_reaches reached
    obtain ⟨guarded, counts⟩ := counts_of_pending nested.waiting
    refine ⟨reverse_pending nested.waiting, guarded, by rw [depth]; omega, ?_⟩
    intro header row after stepped moved
    cases performs_iff.mpr stepped with
    | command => cases moved
    | enter => cases moved
    | skip => cases moved
    | back top outer read calls =>
      obtain rfl : top = header := Move.back.inj moved
      obtain ⟨opened, found⟩ := nested.partner_header calls read
      have member : top ∈ c.calls := calls ▸ List.mem_cons_self
      obtain ⟨k, lt, d, close, before, at_header, announced, entry⟩ :=
        exists_entry_of_mem_calls rfl reached member
      obtain rfl : c.index = close := Option.some.inj (found.symm.trans announced)
      refine ⟨calls, rfl, opened, ?_, k, lt, d, _, _, before, at_header, entry.step_eq, rfl⟩
      rw [Program.findClose, matchingClose_eq_partner, toList_ofString, found]
  · intro n p final halted k d row after close reached stepped moved at_marker
    obtain ⟨m, -, -, last⟩ := advance_eq_halted_iff.mp halted
    cases last with
    | unmatchedOpen read alone =>
      cases performs_iff.mpr stepped with
      | command => cases moved
      | skip => cases moved
      | back => cases moved
      | enter _ _ found =>
        rw [at_marker, alone] at found
        cases found
  · intro n final halted
    obtain ⟨m, -, reached, last⟩ := advance_eq_halted_iff.mp halted
    cases last with
    | finish ended => exact ((nested_of_reaches reached).calls_eq_nil ended).2

end RingTape.Interpreter
