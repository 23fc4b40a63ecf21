/-
# The end of a run and the text

A marker without a partner is met when a run comes to it, and whether a loop is
entered or skipped depends on the cells. Even so the text alone decides what a run
can say of its markers: a run that ends well had a balanced text, a closing marker
that is refused is the first that closes too much, and an opening marker that is
refused is the first without a partner. No skip jumps over either of them, since
what it jumps over is balanced.
-/

import RingTape.Proofs.Execution.CallStack

namespace RingTape

/-- Whether an error is about a loop marker. -/
def ExecutionError.isOfMarker : ExecutionError → Bool
  | .unmatchedOpen _ | .unmatchedClose _ => true
  | .unknownCommand .. => false

end RingTape

namespace RingTape.Nesting

/-- The closing marker at `index` is the first with which more loops are closed than
opened. -/
def FirstSurplusClose (text : List Char) (index : Nat) : Prop :=
  opens (text.take (index + 1)) < closes (text.take (index + 1)) ∧
    ∀ earlier < index, closes (text.take (earlier + 1)) ≤ opens (text.take (earlier + 1))

/-- The opening marker at `index` has no partner, and every one before it has. -/
def FirstLoneOpen (text : List Char) (index : Nat) : Prop :=
  text[index]? = some loopOpen ∧ (∀ close, ¬ Partners text index close) ∧
    ∀ start < index, text[start]? = some loopOpen → ∃ close, Partners text start close

/-- What a result says about the text and the names of the registry. -/
def Attests (text : List Char) (registry : Registry) : Except ExecutionError Unit → Prop
  | .ok () => Balanced text
  | .error (.unmatchedClose index) => FirstSurplusClose text index
  | .error (.unmatchedOpen index) => FirstLoneOpen text index ∧ GuardedTo text text.length
  | .error (.unknownCommand name index) =>
    text[index]? = some name ∧ name ≠ loopOpen ∧ name ≠ loopClose ∧
      Registry.isBuiltin name = false ∧ registry.isCustom name = false ∧
      GuardedTo text index ∧ ∀ start ∈ unclosed text index, ∃ close, Partners text start close

theorem FirstSurplusClose.unique {text : List Char} {first second : Nat}
    (one : FirstSurplusClose text first) (other : FirstSurplusClose text second) :
    first = second := by
  rcases Nat.lt_trichotomy first second with before | equal | after
  · exact absurd (other.2 first before) (Nat.not_le.mpr one.1)
  · exact equal
  · exact absurd (one.2 second after) (Nat.not_le.mpr other.1)

theorem FirstLoneOpen.unique {text : List Char} {first second : Nat}
    (one : FirstLoneOpen text first) (other : FirstLoneOpen text second) : first = second := by
  rcases Nat.lt_trichotomy first second with before | equal | after
  · obtain ⟨close, partners⟩ := other.2.2 first before one.1
    exact absurd partners (one.2.1 close)
  · exact equal
  · obtain ⟨close, partners⟩ := one.2.2 second after other.1
    exact absurd partners (other.2.1 close)

/-- A surplus closing marker keeps the text from being guarded. -/
theorem FirstSurplusClose.not_guardedTo {text : List Char} {index : Nat}
    (surplus : FirstSurplusClose text index) : ¬ GuardedTo text text.length := fun guarded =>
  absurd (guardedTo_of_length guarded (index + 1) (index + 1) le_rfl) (Nat.not_le.mpr surplus.1)

/-- A lone opening marker keeps the text from being balanced. -/
theorem FirstLoneOpen.not_balanced {text : List Char} {index : Nat}
    (lone : FirstLoneOpen text index) : ¬ Balanced text := by
  intro balanced
  have waiting := (balanced_iff_pending text).mp balanced
  have inside : index < text.length := (List.getElem?_eq_some_iff.mp lone.1).1
  have member := (mem_pending_iff waiting index).mpr
    ⟨inside, lone.1, fun close _ => lone.2.1 close⟩
  cases member

/-- At most one error about a marker fits a text. -/
theorem eq_of_attests {text : List Char} {registry other : Registry}
    {first second : ExecutionError} (one : Attests text registry (.error first))
    (two : Attests text other (.error second)) (marker : first.isOfMarker)
    (markers : second.isOfMarker) : first = second := by
  cases first with
  | unknownCommand => cases marker
  | unmatchedOpen index =>
    cases second with
    | unknownCommand => cases markers
    | unmatchedOpen index' => rw [FirstLoneOpen.unique one.1 two.1]
    | unmatchedClose index' => exact absurd one.2 (FirstSurplusClose.not_guardedTo two)
  | unmatchedClose index =>
    cases second with
    | unknownCommand => cases markers
    | unmatchedOpen index' => exact absurd two.2 (FirstSurplusClose.not_guardedTo one)
    | unmatchedClose index' => rw [FirstSurplusClose.unique one two]

end RingTape.Nesting

namespace RingTape.Execution

open Nesting

variable {text : List Char} {registry : Registry} {c : Configuration}

/-- Every open marker of a nested state has a partner. -/
theorem Nested.exists_partners {start : Nat} (nested : Nested text c)
    (member : start ∈ c.calls) : ∃ close, Partners text start close := by
  obtain ⟨close, found, -⟩ := nested.exists_partner member
  have opened := ((mem_pending_iff nested.waiting start).mp member).2.1
  exact ⟨close, (partner_eq_some_iff opened).mp found⟩

/-- A marker behind the index that is not on the stack was closed. -/
theorem Nested.exists_partners_of_lt {start : Nat} (nested : Nested text c)
    (before : start < c.index) (opened : text[start]? = some loopOpen) :
    ∃ close, Partners text start close := by
  by_cases member : start ∈ c.calls
  · exact nested.exists_partners member
  · by_contra alone
    exact member ((mem_pending_iff nested.waiting start).mpr
      ⟨before, opened, fun close _ partners => alone ⟨close, partners⟩⟩)

/-- The step that ends a run says about the text what its result attests. -/
theorem Nested.attests {result : Except ExecutionError Unit} (nested : Nested text c)
    (performs : Performs text registry c (.halt result c)) : Attests text registry result := by
  obtain ⟨guarded, counts⟩ := counts_of_pending nested.waiting
  cases performs with
  | finish ended =>
    obtain ⟨at_end, empty⟩ := nested.calls_eq_nil ended
    have waiting := nested.waiting
    rw [at_end, empty] at waiting
    exact (balanced_iff_pending text).mpr waiting
  | unmatchedClose read empty =>
    refine ⟨?_, fun earlier lt => guarded (earlier + 1) lt⟩
    rw [opens_take_succ, closes_take_succ, read, if_pos rfl, if_neg (by decide), ← counts, empty]
    simp
  | unmatchedOpen read alone =>
    have lone : ∀ close, ¬ Partners text c.index close := by
      intro close partners
      rw [(partner_eq_some_iff read).mpr partners] at alone
      cases alone
    have earlier : ∀ start < c.index, text[start]? = some loopOpen →
        ∃ close, Partners text start close := by
      intro start before opened
      exact nested.exists_partners_of_lt before opened
    obtain ⟨inner, waiting⟩ :=
      pending_of_no_partner nested.waiting read alone text.length (lt_length_of_read read)
    exact ⟨⟨read, lone, earlier⟩, (counts_of_pending waiting).1⟩
  | unknown name read unresolved ne_open ne_close =>
    have unnamed := registry.isSome_resolve name
    rw [unresolved, Option.isSome_none, eq_comm, Registry.contains, Bool.or_eq_false_iff] at unnamed
    have closed : ∀ start ∈ unclosed text c.index, ∃ close, Partners text start close := by
      intro start member
      rw [← reverse_pending nested.waiting, List.mem_reverse] at member
      exact nested.exists_partners member
    exact ⟨read, ne_open, ne_close, unnamed.1, unnamed.2, guarded, closed⟩

end RingTape.Execution

namespace RingTape.Interpreter

open Execution Nesting

theorem attests_of_executes {i after : Interpreter} {code : String}
    {result : Except ExecutionError Unit} (executed : i.Executes code result after) :
    Attests code.toList i.registry result := by
  obtain ⟨n, c, reached, last, -⟩ := executes_iff.mp executed
  exact (nested_of_reaches reached).attests last

/-- The result of an execution that ends attests what the text is. So a balanced
program of known commands ends well if it ends, no other program does, and all
executions of a program that end with an error about a marker end with the same
one, whatever the machines and the commands are. -/
theorem result_of_text (code : String) :
    (∀ i result after, Executes i code result after →
      Attests code.toList i.registry result) ∧
    (∀ i result after, Executes i code result after → Balanced code.toList →
      (∀ name ∈ code.toList, name = loopOpen ∨ name = loopClose ∨ i.registry.contains name) →
      result = .ok ()) ∧
    (∀ i after, ¬ Balanced code.toList → ¬ Executes i code (.ok ()) after) ∧
    ∀ i j first second after after', Executes i code (.error first) after →
      Executes j code (.error second) after' → first.isOfMarker → second.isOfMarker →
      first = second := by
  refine ⟨?_, ?_, ?_, ?_⟩
  · intro i result after executed
    exact attests_of_executes executed
  · intro i result after executed balanced known
    have attested := attests_of_executes executed
    match result with
    | .ok () => rfl
    | .error (.unmatchedClose index) =>
      exact absurd balanced.1 (FirstSurplusClose.not_guardedTo attested)
    | .error (.unmatchedOpen index) =>
      exact absurd balanced (FirstLoneOpen.not_balanced attested.1)
    | .error (.unknownCommand name index) =>
      obtain ⟨read, ne_open, ne_close, not_builtin, not_custom, -⟩ := attested
      rcases known name (List.mem_of_getElem? read) with opened | closed | contained
      · exact absurd opened ne_open
      · exact absurd closed ne_close
      · rw [Registry.contains, not_builtin, not_custom] at contained
        cases contained
  · intro i after unbalanced executed
    exact unbalanced (attests_of_executes executed)
  · intro i j first second after after' one two
    exact eq_of_attests (attests_of_executes one) (attests_of_executes two)

end RingTape.Interpreter
