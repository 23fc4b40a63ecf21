/-
# What a registration changes

Putting a command into a registry gives its name a routine, and removing it takes the
routine away; either leaves every other name as it was. Whether a command can be
registered depends on its name and on the names that are taken. Commands with different
names can be registered one after the other, up to the first whose name is taken.
-/

import Mathlib.Data.List.Basic
import Mathlib.Data.List.TakeWhile
import RingTape.Interpreter

namespace RingTape

/-- What was made of a value, if all went well, was made of one. -/
theorem exists_of_map_ok {ε α β : Type} {x : Except ε α} {f : α → β} {b : β}
    (mapped : x.map f = .ok b) : ∃ a, x = .ok a ∧ f a = b := by
  cases x with
  | error e => cases mapped
  | ok a => exact ⟨a, rfl, Except.ok.inj mapped⟩

end RingTape

namespace RingTape.Registry

variable {r : Registry} {name : Char} {routine : Routine}

theorem lookup_cons_eq_ite (c : Char) (entry : Char × Routine)
    (entries : List (Char × Routine)) :
    (entry :: entries).lookup c = if c = entry.1 then some entry.2 else entries.lookup c := by
  rw [List.lookup_cons]
  by_cases same : c = entry.1
  · rw [if_pos same, beq_iff_eq.mpr same]
  · rw [if_neg same, beq_eq_false_iff_ne.mpr same]

/-- An entry under a new name is found under that name and hides no other. -/
theorem lookup_insert (routine : Routine) {entries : List (Char × Routine)}
    (absent : ∀ entry ∈ entries, entry.1 ≠ name) (c : Char) :
    (insert name routine entries).lookup c =
      if c = name then some routine else entries.lookup c := by
  induction entries with
  | nil => exact lookup_cons_eq_ite c (name, routine) []
  | cons first rest ih =>
    have later := ih fun entry member => absent entry (List.mem_cons_of_mem _ member)
    have other : first.1 ≠ name := absent first List.mem_cons_self
    unfold insert
    split
    · exact lookup_cons_eq_ite c (name, routine) (first :: rest)
    · rw [lookup_cons_eq_ite, lookup_cons_eq_ite, later]
      by_cases same : c = name
      · subst same
        rw [if_neg other.symm, if_pos rfl, if_pos rfl]
      · rw [if_neg same, if_neg same]

/-- Without the entries of a name, that name is not found and every other as before. -/
theorem lookup_filter_ne (name : Char) (entries : List (Char × Routine)) (c : Char) :
    (entries.filter fun entry => entry.1 ≠ name).lookup c =
      if c = name then none else entries.lookup c := by
  induction entries with
  | nil => simp
  | cons first rest ih =>
    by_cases gone : first.1 = name
    · rw [List.filter_cons_of_neg (by simpa using gone), ih, lookup_cons_eq_ite, gone]
      by_cases same : c = name
      · rw [if_pos same, if_pos same]
      · rw [if_neg same, if_neg same, if_neg same]
    · rw [List.filter_cons_of_pos (by simpa using gone), lookup_cons_eq_ite, lookup_cons_eq_ite, ih]
      by_cases same : c = name
      · subst same
        rw [if_neg (Ne.symm gone), if_pos rfl, if_pos rfl]
      · rw [if_neg same, if_neg same]

/-- Among the custom commands only the new name is different. -/
theorem customRoutine?_put (free : Free name) (absent : ¬ r.isCustom name) (c : Char) :
    (r.put name routine free absent).customRoutine? c =
      if c = name then some routine else r.customRoutine? c :=
  lookup_insert routine
    (fun entry member equal => absent (isCustom_iff_exists.mpr ⟨entry, member, equal⟩)) c

/-- The new name resolves to its routine and every other as before. -/
theorem resolve_put (free : Free name) (absent : ¬ r.isCustom name) (c : Char) :
    (r.put name routine free absent).resolve c =
      if c = name then some routine else r.resolve c := by
  unfold resolve
  cases builtin : Builtin.ofSymbol? c with
  | none => exact customRoutine?_put free absent c
  | some b =>
    have other : c ≠ name := by
      rintro rfl
      simpa [isBuiltin, builtin] using free.not_builtin
    rw [if_neg other]

/-- A free name that is not taken can be registered. -/
theorem add_of_free (free : Free name) (absent : ¬ r.isCustom name) :
    r.add name routine = .ok (r.put name routine free absent) := by
  have marker : ¬ (name = loopOpen ∨ name = loopClose) :=
    fun either => either.elim free.ne_loopOpen free.ne_loopClose
  rw [add, dif_neg marker, dif_neg (by simp [free.not_builtin]), dif_neg absent]

/-- The markers are refused. -/
theorem add_of_marker (marker : name = loopOpen ∨ name = loopClose) :
    r.add name routine = .error (.reserved name) := by
  rw [add, dif_pos marker]

/-- So are the names of the built-in commands. -/
theorem add_of_builtin (builtin : isBuiltin name) :
    r.add name routine = .error (.duplicate name .builtin) := by
  have no_marker : ¬ (name = loopOpen ∨ name = loopClose) := by
    rintro (rfl | rfl) <;> cases builtin
  rw [add, dif_neg no_marker, dif_pos builtin]

/-- And those of the custom commands that are there. -/
theorem add_of_isCustom (free : Free name) (taken : r.isCustom name) :
    r.add name routine = .error (.duplicate name .custom) := by
  have marker : ¬ (name = loopOpen ∨ name = loopClose) :=
    fun either => either.elim free.ne_loopOpen free.ne_loopClose
  rw [add, dif_neg marker, dif_neg (by simp [free.not_builtin]), dif_pos taken]

/-- A name is a marker, that of a built-in command, or one that may be taken. -/
theorem marker_or_builtin_or_free (name : Char) :
    (name = loopOpen ∨ name = loopClose) ∨ isBuiltin name ∨ Free name := by
  by_cases marker : name = loopOpen ∨ name = loopClose
  · exact .inl marker
  · obtain ⟨ne_open, ne_close⟩ := not_or.mp marker
    cases builtin : isBuiltin name with
    | true => exact .inr (.inl rfl)
    | false => exact .inr (.inr ⟨ne_open, ne_close, builtin⟩)

/-- What is registered had a free name that was not taken. -/
theorem exists_put_of_add {r' : Registry} (added : r.add name routine = .ok r') :
    ∃ (free : Free name) (absent : ¬ r.isCustom name), r' = r.put name routine free absent := by
  rcases marker_or_builtin_or_free name with marker | builtin | free
  · rw [add_of_marker marker] at added
    cases added
  · rw [add_of_builtin builtin] at added
    cases added
  · by_cases taken : r.isCustom name
    · rw [add_of_isCustom free taken] at added
      cases added
    · rw [add_of_free free taken] at added
      exact ⟨free, taken, (Except.ok.inj added).symm⟩

/-- A registration concerns one custom command. -/
theorem customRoutine?_of_add {r' : Registry} (added : r.add name routine = .ok r') (c : Char) :
    r'.customRoutine? c = if c = name then some routine else r.customRoutine? c := by
  obtain ⟨free, absent, rfl⟩ := exists_put_of_add added
  exact customRoutine?_put free absent c

/-- A removal concerns one custom command, which was there. -/
theorem customRoutine?_of_remove {r' : Registry} (removed : r.remove name = .ok r') (c : Char) :
    r'.customRoutine? c = if c = name then none else r.customRoutine? c := by
  rw [remove] at removed
  split at removed
  · cases removed
    exact lookup_filter_ne name r.custom c
  · cases removed

/-- A name resolves to its built-in command, and if there is none, to its custom command. -/
theorem resolve_eq_or (r : Registry) (c : Char) :
    r.resolve c = ((Builtin.ofSymbol? c).map Builtin.routine).or (r.customRoutine? c) := by
  unfold resolve
  cases Builtin.ofSymbol? c <;> rfl

/-- A name is custom exactly if it is a custom name. -/
theorem isCustom_eq_contains (r : Registry) (name : Char) :
    r.isCustom name = r.customNames.contains name := by
  rw [Bool.eq_iff_iff, isCustom_iff_exists, List.contains_iff_mem, customNames, List.mem_map]

end RingTape.Registry

namespace RingTape.Interpreter

/-- Commands with different free names are registered in order up to the first whose name
is taken, which is the one that is reported. -/
theorem addAll_of_nodup {entries : List (Char × Routine)} {i : Interpreter} (taken : Char → Bool)
    (different : (entries.map Prod.fst).Nodup)
    (free : ∀ entry ∈ entries, Registry.Free entry.1)
    (known : ∀ entry ∈ entries, i.registry.isCustom entry.1 = taken entry.1) :
    (addAll entries i).1 = (match entries.find? fun entry => taken entry.1 with
      | none => .ok ()
      | some entry => .error (.duplicate entry.1 .custom)) ∧
    ∀ c, (addAll entries i).2.registry.customRoutine? c =
      ((entries.takeWhile fun entry => !taken entry.1).lookup c).or
        (i.registry.customRoutine? c) := by
  induction entries generalizing i with
  | nil => exact ⟨rfl, fun c => rfl⟩
  | cons entry rest ih =>
    obtain ⟨name, routine⟩ := entry
    obtain ⟨new, different⟩ := List.nodup_cons.mp different
    have free_here : Registry.Free name := free _ List.mem_cons_self
    have known_here : i.registry.isCustom name = taken name := known _ List.mem_cons_self
    cases here : taken name with
    | true =>
      have refused : i.add name routine = .error (.duplicate name .custom) := by
        rw [add, Registry.add_of_isCustom free_here (known_here.trans here)]
        rfl
      simp [addAll, refused, here]
    | false =>
      have absent : ¬ i.registry.isCustom name := by simp [known_here, here]
      let i' : Interpreter :=
        { machine := i.machine.record (.commandAdded name),
          registry := i.registry.put name routine free_here absent }
      have added : i.add name routine = .ok i' := by
        rw [add, Registry.add_of_free free_here absent]
        rfl
      have others : ∀ entry ∈ rest, entry.1 ≠ name :=
        fun entry member same => new (List.mem_map.mpr ⟨entry, member, same⟩)
      have known' : ∀ entry ∈ rest, i'.registry.isCustom entry.1 = taken entry.1 := by
        intro entry member
        rw [Registry.isCustom, Registry.customRoutine?_put, if_neg (others entry member)]
        exact known entry (List.mem_cons_of_mem _ member)
      obtain ⟨outcome, found⟩ :=
        ih different (fun entry member => free entry (List.mem_cons_of_mem _ member)) known'
      simp only [addAll, added, List.find?_cons, List.takeWhile_cons, here, Bool.not_false, if_pos]
      refine ⟨outcome, fun c => (found c).trans ?_⟩
      rw [Registry.lookup_cons_eq_ite, Registry.customRoutine?_put]
      by_cases same : c = name
      · -- The other names are different, so none of them hides the new entry.
        have alone : (rest.takeWhile fun entry => !taken entry.1).lookup c = none := by
          rw [List.lookup_eq_none_iff]
          intro entry member
          have later : entry ∈ rest := (List.takeWhile_prefix _).subset member
          exact bne_iff_ne.mpr fun equal => others entry later (equal ▸ same)
        rw [alone, if_pos same, if_pos same]
        rfl
      · rw [if_neg same, if_neg same]

/-- Several free names that are not taken can be registered for one routine. -/
theorem addAll_of_free (routine : Routine) (names : List Char) (i : Interpreter)
    (different : names.Nodup) (free : ∀ name ∈ names, Registry.Free name)
    (absent : ∀ name ∈ names, ¬ i.registry.isCustom name) :
    ∃ j, addAll (names.map fun name => (name, routine)) i = (.ok (), j) ∧
      ∀ c, j.registry.resolve c = if c ∈ names then some routine else i.registry.resolve c := by
  have absent' : ∀ entry ∈ names.map fun name => (name, routine),
      i.registry.isCustom entry.1 = false := by
    simpa using absent
  have names_eq : (names.map fun name => (name, routine)).map Prod.fst = names :=
    List.map_map.trans (List.map_id names)
  obtain ⟨outcome, found⟩ := addAll_of_nodup (fun _ => false) (names_eq.symm ▸ different)
    (by simpa using free) absent'
  have whole : (names.map fun name => (name, routine)).takeWhile (fun _ => !false) =
      names.map fun name => (name, routine) := List.takeWhile_eq_self_iff.mpr fun _ _ => rfl
  rw [List.find?_eq_none.mpr fun _ _ => Bool.noConfusion] at outcome
  refine ⟨_, Prod.ext outcome rfl, fun c => ?_⟩
  rw [Registry.resolve_eq_or, Registry.resolve_eq_or, found c, whole]
  by_cases member : c ∈ names
  · have unspelled : Builtin.ofSymbol? c = none := by
      simpa [Registry.isBuiltin] using (free c member).not_builtin
    rw [List.lookup_graph (fun _ => routine) member, if_pos member, unspelled]
    rfl
  · have unlisted : (names.map fun name => (name, routine)).lookup c = none := by
      simpa [List.lookup_eq_none_iff] using fun name listed (same : c = name) =>
        member (same ▸ listed)
    rw [unlisted, if_neg member, Option.none_or]

end RingTape.Interpreter
