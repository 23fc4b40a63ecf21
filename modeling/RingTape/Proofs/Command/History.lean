/-
# Histories of a registry

Commands come and go while an interpreter is used, and each of these operations can be
refused. What is left of such a history is simple: every name belongs to the last change
that succeeded on it. Nothing else of the history matters, not even that the registration
of the stock commands may have been broken off half way, because it is a list of changes
of single names like the others.

The names that a history can leave behind are those that may be taken, so the built-in
commands and the loop markers keep their meaning whatever is tried.
-/

import RingTape.Proofs.Command.Registration

namespace RingTape

/-- A change of what one name means: a command is registered under it, or removed. -/
inductive Change
  | added (name : Char) (routine : Routine)
  | removed (name : Char)

/-- An operation on the commands of an interpreter. -/
inductive Edit
  | add (name : Char) (routine : Routine)
  | remove (name : Char)
  | addStock

namespace Change

/-- The name that is changed. -/
def name : Change → Char
  | added name _ => name
  | removed name => name

/-- The custom command that the name has then. -/
def routine? : Change → Option Routine
  | added _ routine => some routine
  | removed _ => none

/-- Make a change, if it is allowed. -/
def make : Change → Interpreter → Except RegistryError Interpreter
  | added name routine, i => i.add name routine
  | removed name, i => i.remove name

/-- Make changes in order, up to the first that is refused. -/
def makeAll : List Change → Interpreter → Except RegistryError Unit × Interpreter
  | [], i => (.ok (), i)
  | change :: rest, i =>
    match change.make i with
    | .ok j => makeAll rest j
    | .error e => (.error e, i)

/-- Those of the changes that are made. -/
def succeeding : List Change → Interpreter → List Change
  | [], _ => []
  | change :: rest, i =>
    match change.make i with
    | .ok j => change :: succeeding rest j
    | .error _ => []

/-- The last of the changes that is one of a name. -/
def lastOf (name : Char) (changes : List Change) : Option Change :=
  (changes.filter fun change => change.name = name).getLast?

/-- The custom command that changes leave to a name which had `before`. -/
def leave (name : Char) (before : Option Routine) (changes : List Change) : Option Routine :=
  match lastOf name changes with
  | some change => change.routine?
  | none => before

end Change

namespace Edit

/-- Perform an operation. One that is refused leaves the interpreter as it was, but for
the stock commands that came before the one refused. -/
def perform : Edit → Interpreter → Except RegistryError Unit × Interpreter
  | add name routine, i =>
    match i.add name routine with
    | .ok j => (.ok (), j)
    | .error e => (.error e, i)
  | remove name, i =>
    match i.remove name with
    | .ok j => (.ok (), j)
    | .error e => (.error e, i)
  | addStock, i => i.addStock

/-- The changes that an operation sets out to make. -/
def attempts : Edit → List Change
  | add name routine => [.added name routine]
  | remove name => [.removed name]
  | addStock => Stock.all.map fun s => .added s.symbol s.routine

end Edit

namespace Interpreter

/-- An interpreter after operations on its commands. -/
def edited : List Edit → Interpreter → Interpreter
  | [], i => i
  | edit :: rest, i => edited rest (edit.perform i).2

/-- The changes that succeeded in the course of these operations. -/
def history : List Edit → Interpreter → List Change
  | [], _ => []
  | edit :: rest, i => Change.succeeding edit.attempts i ++ history rest (edit.perform i).2

end Interpreter

namespace Edit

/-- What a registration answers is what the registry answers. -/
theorem outcome_add (name : Char) (routine : Routine) (i : Interpreter) :
    ((add name routine).perform i).1 = (i.registry.add name routine).map fun _ => () := by
  rw [perform, Interpreter.add]
  cases i.registry.add name routine <;> rfl

/-- The same of a removal. -/
theorem outcome_remove (name : Char) (i : Interpreter) :
    ((remove name).perform i).1 = (i.registry.remove name).map fun _ => () := by
  rw [perform, Interpreter.remove]
  cases i.registry.remove name <;> rfl

/-- One of them that is refused leaves the interpreter as it was. -/
theorem perform_eq_of_error {edit : Edit} {i : Interpreter} {e : RegistryError}
    (single : edit ≠ addStock) (refused : (edit.perform i).1 = .error e) :
    (edit.perform i).2 = i := by
  cases edit with
  | add name routine =>
    rw [perform] at refused ⊢
    cases answer : i.add name routine with
    | error e => rfl
    | ok j =>
      rw [answer] at refused
      cases refused
  | remove name =>
    rw [perform] at refused ⊢
    cases answer : i.remove name with
    | error e => rfl
    | ok j =>
      rw [answer] at refused
      cases refused
  | addStock => exact absurd rfl single

end Edit

/-! ## The last change of a name -/

namespace Change

theorem lastOf_append (name : Char) (first second : List Change) :
    lastOf name (first ++ second) = (lastOf name second).or (lastOf name first) := by
  rw [lastOf, List.filter_append, List.getLast?_append]
  rfl

theorem name_of_lastOf {name : Char} {changes : List Change} {change : Change}
    (last : lastOf name changes = some change) : change.name = name := by
  have member : change ∈ changes.filter fun change => change.name = name :=
    List.mem_of_getLast? last
  simpa using (List.mem_filter.mp member).2

@[simp] theorem leave_nil (name : Char) (before : Option Routine) : leave name before [] = before :=
  rfl

theorem leave_append (name : Char) (before : Option Routine) (first second : List Change) :
    leave name before (first ++ second) = leave name (leave name before first) second := by
  unfold leave
  rw [lastOf_append]
  cases lastOf name second <;> rfl

theorem leave_singleton (name : Char) (before : Option Routine) (change : Change) :
    leave name before [change] = if name = change.name then change.routine? else before := by
  unfold leave lastOf
  by_cases same : change.name = name
  · simp [same]
  · simp [same, Ne.symm same]

/-- Where no command was before, a command is left exactly by a last change that
registered it. -/
theorem leave_none_eq_some_iff {name : Char} {changes : List Change} {routine : Routine} :
    leave name none changes = some routine ↔
      lastOf name changes = some (.added name routine) := by
  unfold leave
  cases last : lastOf name changes with
  | none => simp
  | some change =>
    have named := name_of_lastOf last
    cases change with
    | added other found =>
      obtain rfl : other = name := named
      simp [routine?]
    | removed other => simp [routine?]

end Change

/-! ## What operations do -/

namespace Change

/-- A change that is made concerns its own name and no other. -/
theorem customRoutine?_of_make {i j : Interpreter} {change : Change} (made : change.make i = .ok j)
    (c : Char) :
    j.registry.customRoutine? c =
      if c = change.name then change.routine? else i.registry.customRoutine? c := by
  cases change with
  | added name routine =>
    obtain ⟨r, added, rfl⟩ := exists_of_map_ok made
    exact Registry.customRoutine?_of_add added c
  | removed name =>
    obtain ⟨r, removed, rfl⟩ := exists_of_map_ok made
    exact Registry.customRoutine?_of_remove removed c

/-- After changes every name has the command that those which succeeded leave to it. -/
theorem customRoutine?_makeAll (changes : List Change) (i : Interpreter) (c : Char) :
    (makeAll changes i).2.registry.customRoutine? c =
      leave c (i.registry.customRoutine? c) (succeeding changes i) := by
  induction changes generalizing i with
  | nil => rfl
  | cons change rest ih =>
    rw [makeAll, succeeding]
    cases made : change.make i with
    | error e => rfl
    | ok j =>
      have later := ih j
      rw [customRoutine?_of_make made, ← leave_singleton, ← leave_append] at later
      exact later

/-- To register commands in order is to make these changes. -/
theorem makeAll_map_added (entries : List (Char × Routine)) (i : Interpreter) :
    makeAll (entries.map fun entry => .added entry.1 entry.2) i = i.addAll entries := by
  induction entries generalizing i with
  | nil => rfl
  | cons entry rest ih =>
    rw [List.map_cons, makeAll, make, Interpreter.addAll]
    cases i.add entry.1 entry.2 with
    | error e => rfl
    | ok j => exact ih j

end Change

/-- Every operation makes the changes that it attempts, up to the first that is refused. -/
theorem Edit.perform_eq_makeAll (edit : Edit) (i : Interpreter) :
    edit.perform i = Change.makeAll edit.attempts i := by
  cases edit with
  | add name routine =>
    rw [perform, attempts, Change.makeAll, Change.make]
    cases i.add name routine <;> rfl
  | remove name =>
    rw [perform, attempts, Change.makeAll, Change.make]
    cases i.remove name <;> rfl
  | addStock => exact (Change.makeAll_map_added _ i).symm

namespace Interpreter

/-- After operations every name has the command that their history leaves to it. -/
theorem customRoutine?_edited (edits : List Edit) (i : Interpreter) (c : Char) :
    (edited edits i).registry.customRoutine? c =
      Change.leave c (i.registry.customRoutine? c) (history edits i) := by
  induction edits generalizing i with
  | nil => rfl
  | cons edit rest ih =>
    rw [edited, history, Change.leave_append, ih, Edit.perform_eq_makeAll,
      Change.customRoutine?_makeAll]

end Interpreter

/-! ## The stock commands -/

namespace Stock

/-- The names of the stock commands may be taken. -/
theorem free_symbol (s : Stock) : Registry.Free s.symbol := by
  cases s <;> exact ⟨by decide, by decide, by decide⟩

theorem mem_all (s : Stock) : s ∈ all := by cases s <;> decide

theorem symbol_injective : Function.Injective symbol := by
  intro s t same
  have spelled := ofSymbol?_symbol s
  rw [same, ofSymbol?_symbol] at spelled
  exact (Option.some.inj spelled).symm

theorem lookup_symbol {stocks : List Stock} {s : Stock} (member : s ∈ stocks) :
    (stocks.map fun s => (s.symbol, s.routine)).lookup s.symbol = some s.routine := by
  induction stocks with
  | nil => cases member
  | cons first rest ih =>
    rw [List.map_cons, Registry.lookup_cons_eq_ite]
    by_cases same : s.symbol = first.symbol
    · rw [if_pos same, symbol_injective same]
    · have later : s ∈ rest := (List.mem_cons.mp member).resolve_left fun equal =>
        same (congrArg symbol equal)
      rw [if_neg same, ih later]

theorem lookup_eq_none {stocks : List Stock} {name : Char}
    (other : ∀ s ∈ stocks, s.symbol ≠ name) :
    (stocks.map fun s => (s.symbol, s.routine)).lookup name = none := by
  rw [List.lookup_eq_none_iff]
  intro entry member
  obtain ⟨s, listed, rfl⟩ := List.mem_map.mp member
  exact bne_iff_ne.mpr (other s listed).symm

end Stock

namespace Registry

/-- What the registration of the stock commands makes of the registry `r`, and what it
answers: the commands before the first whose name is taken are there, that one is
reported, and nothing else is different. -/
structure Stocks (r : Registry) (outcome : Except RegistryError Unit) (r' : Registry) : Prop where
  resolve_new : ∀ s ∈ Stock.all.takeWhile fun s => !r.isCustom s.symbol,
    r'.resolve s.symbol = some s.routine
  resolve_other : ∀ name,
    (∀ s ∈ Stock.all.takeWhile fun s => !r.isCustom s.symbol, s.symbol ≠ name) →
      r'.resolve name = r.resolve name
  isCustom_iff : ∀ name, r'.isCustom name ↔
    r.isCustom name ∨ ∃ s ∈ Stock.all.takeWhile fun s => !r.isCustom s.symbol, s.symbol = name
  outcome_eq : outcome = match Stock.all.find? fun s => r.isCustom s.symbol with
    | none => .ok ()
    | some s => .error (.duplicate s.symbol .custom)
  outcome_eq_ok_iff : outcome = .ok () ↔ ∀ s : Stock, ¬ r.isCustom s.symbol

end Registry

/-- The stock commands are registered like that. -/
theorem Interpreter.stocks_addStock (i : Interpreter) :
    i.registry.Stocks i.addStock.1 i.addStock.2.registry := by
  let taken (name : Char) : Bool := i.registry.isCustom name
  let new := Stock.all.takeWhile fun s => !taken s.symbol
  have free : ∀ entry ∈ Stock.all.map fun s => (s.symbol, s.routine), Registry.Free entry.1 := by
    intro entry member
    obtain ⟨s, -, rfl⟩ := List.mem_map.mp member
    exact s.free_symbol
  obtain ⟨outcome, found⟩ := addAll_of_nodup (i := i) taken (by decide) free fun _ _ => rfl
  rw [List.takeWhile_map] at found
  have outcome_eq : i.addStock.1 = match Stock.all.find? fun s => i.registry.isCustom s.symbol with
      | none => .ok ()
      | some s => .error (.duplicate s.symbol .custom) := by
    rw [List.find?_map] at outcome
    have first : (Stock.all.find?
        ((fun entry : Char × Routine => taken entry.1) ∘ fun s => (s.symbol, s.routine))) =
          Stock.all.find? fun s => i.registry.isCustom s.symbol := rfl
    rw [addStock, outcome, first]
    cases Stock.all.find? fun s => i.registry.isCustom s.symbol <;> rfl
  have left (name : Char) : i.addStock.2.registry.customRoutine? name =
      ((new.map fun s => (s.symbol, s.routine)).lookup name).or (i.registry.customRoutine? name) :=
    found name
  refine ⟨?_, ?_, ?_, outcome_eq, ?_⟩
  · intro s member
    have unspelled : Builtin.ofSymbol? s.symbol = none := by cases s <;> rfl
    rw [Registry.resolve_eq_or, left, Stock.lookup_symbol member, unspelled]
    rfl
  · intro name other
    rw [Registry.resolve_eq_or, left, Stock.lookup_eq_none other, Option.none_or,
      ← Registry.resolve_eq_or]
  · intro name
    rw [Registry.isCustom, left, Registry.isCustom]
    by_cases registered : ∃ s ∈ new, s.symbol = name
    · obtain ⟨s, member, rfl⟩ := registered
      rw [Stock.lookup_symbol member]
      exact ⟨fun _ => .inr ⟨s, member, rfl⟩, fun _ => rfl⟩
    · have other : ∀ s ∈ new, s.symbol ≠ name := fun s member same =>
        registered ⟨s, member, same⟩
      rw [Stock.lookup_eq_none other, Option.none_or]
      exact ⟨.inl, fun either => either.resolve_right registered⟩
  · rw [outcome_eq]
    cases first : Stock.all.find? fun s => i.registry.isCustom s.symbol with
    | none => exact ⟨fun _ s => List.find?_eq_none.mp first s s.mem_all, fun _ => rfl⟩
    | some s =>
      have taken : i.registry.isCustom s.symbol := by simpa using List.find?_some first
      constructor
      · intro impossible
        cases impossible
      · intro none_taken
        exact absurd taken (none_taken s)

/-- Where the second of the three names is taken, the first is registered and the third is not. -/
example (m : Machine) :
    let i := Interpreter.edited [.add '/' .done, .addStock] ⟨m, .empty⟩
    i.registry.customNames = ['*', '/'] ∧ i.registry.customRoutine? '/' = some .done :=
  ⟨rfl, rfl⟩

/-! ## What is left of a history -/

namespace Registry

/-- A registry is what the history `past` of its names has left: no name but those that
may be taken, in ascending order, and under each what its last change made of it. The
built-in commands and the markers have no history. -/
structure Remembers (r : Registry) (past : List Change) : Prop where
  free : ∀ name ∈ r.customNames, Free name
  ascending : r.customNames.Pairwise (· < ·)
  isCustom_iff : ∀ name, r.isCustom name ↔
    ∃ routine, Change.lastOf name past = some (.added name routine)
  resolve_added : ∀ name routine, Change.lastOf name past = some (.added name routine) →
    r.resolve name = some routine
  resolve_builtin : ∀ b : Builtin, r.resolve b.symbol = some b.routine
  resolve_marker : r.resolve loopOpen = none ∧ r.resolve loopClose = none

/-- A registry whose custom commands are those that changes leave is what they have left. -/
theorem remembers_of_leave {r : Registry} {past : List Change}
    (left : ∀ name, r.customRoutine? name = Change.leave name none past) : r.Remembers past := by
  have custom_iff (name : Char) (routine : Routine) : r.customRoutine? name = some routine ↔
      Change.lastOf name past = some (.added name routine) := by
    rw [left, Change.leave_none_eq_some_iff]
  refine
    { free := fun name member => ?_
      ascending := List.pairwise_map.mpr r.ascending
      isCustom_iff := fun name => ?_
      resolve_added := fun name routine last => ?_
      resolve_builtin := fun b => ?_
      resolve_marker := ⟨r.resolve_loopOpen, r.resolve_loopClose⟩ }
  · obtain ⟨entry, listed, rfl⟩ := List.mem_map.mp member
    exact r.free entry listed
  · rw [isCustom, Option.isSome_iff_exists]
    exact exists_congr (custom_iff name)
  · have found := (custom_iff name routine).mpr last
    have free : Free name := by
      by_contra taken
      rw [customRoutine?_of_not_free taken] at found
      cases found
    have unspelled : Builtin.ofSymbol? name = none := by
      simpa [isBuiltin] using free.not_builtin
    rw [resolve_eq_or, unspelled, found]
    rfl
  · rw [resolve_eq_or, Builtin.ofSymbol?_symbol]
    rfl

end Registry

namespace Interpreter

/-- Whatever was registered and removed before, each name has the command that the last
successful operation on it registered, or none if that was a removal. A registration is
refused for a marker, else for the name of a built-in command, else exactly for a name
that is there; a removal is refused exactly for a name that is not. One that is refused
changes nothing. The stock commands are registered up to the first whose name is taken. -/
theorem commands_of_history (machine : Machine) (edits : List Edit) :
    let i := edited edits ⟨machine, .empty⟩
    i.registry.Remembers (history edits ⟨machine, .empty⟩) ∧
    (∀ name routine,
      let outcome := ((Edit.add name routine).perform i).1
      (name = loopOpen ∨ name = loopClose → outcome = .error (.reserved name)) ∧
      (Registry.isBuiltin name → outcome = .error (.duplicate name .builtin)) ∧
      (Registry.Free name →
        (outcome = .error (.duplicate name .custom) ↔ i.registry.isCustom name) ∧
        (outcome = .ok () ↔ ¬ i.registry.isCustom name))) ∧
    (∀ name,
      let outcome := ((Edit.remove name).perform i).1
      (outcome = .error (.unknown name) ↔ ¬ i.registry.isCustom name) ∧
      (outcome = .ok () ↔ i.registry.isCustom name)) ∧
    (∀ (edit : Edit) (e : RegistryError), edit ≠ .addStock →
      (edit.perform i).1 = .error e → (edit.perform i).2 = i) ∧
    i.registry.Stocks (Edit.addStock.perform i).1 (Edit.addStock.perform i).2.registry := by
  intro i
  refine ⟨?_, ?_, ?_, ?_, i.stocks_addStock⟩
  · exact Registry.remembers_of_leave fun name => customRoutine?_edited edits _ name
  · intro name routine outcome
    have answer : outcome = (i.registry.add name routine).map fun _ => () :=
      Edit.outcome_add name routine i
    refine ⟨fun marker => ?_, fun builtin => ?_, fun free => ?_⟩
    · rw [answer, Registry.add_of_marker marker]
      rfl
    · rw [answer, Registry.add_of_builtin builtin]
      rfl
    · by_cases taken : i.registry.isCustom name
      · rw [answer, Registry.add_of_isCustom free taken]
        simp [Except.map, taken]
      · rw [answer, Registry.add_of_free free taken]
        simp [Except.map, taken]
  · intro name outcome
    have answer : outcome = (i.registry.remove name).map fun _ => () := Edit.outcome_remove name i
    by_cases taken : i.registry.isCustom name
    · rw [answer, Registry.remove, if_pos taken]
      simp [Except.map, taken]
    · rw [answer, Registry.remove, if_neg taken]
      simp [Except.map, taken]
  · intro edit e single refused
    exact Edit.perform_eq_of_error single refused

end Interpreter

end RingTape
