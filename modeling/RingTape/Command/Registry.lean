/-
# The registry of commands

A registry finds the routine of a character: the built-in commands first, then
the custom ones. A custom command may take any name but those of the built-in
commands and the two loop markers, and no name twice. Names are kept in ascending
order of code points. The type carries these rules, so no registry breaks them. A
registration or removal that fails changes nothing.
-/

import RingTape.Command.Builtin
import RingTape.Command.Stock
import RingTape.Text.Quoted

namespace RingTape

/-- The marker that opens a loop. -/
def loopOpen : Char := '['

/-- The marker that closes a loop. -/
def loopClose : Char := ']'

/-- The two halves of a registry. -/
inductive Partition
  | builtin
  | custom
  deriving DecidableEq, Repr

/-- The word for a half of a registry. -/
def Partition.name : Partition → String
  | .builtin => "default"
  | .custom => "custom"

/-- Why a command could not be registered or removed. -/
inductive RegistryError
  | duplicate (name : Char) (partition : Partition)
  | unknown (name : Char)
  | reserved (name : Char)
  deriving DecidableEq, Repr

namespace RegistryError

/-- The name an error is about. -/
def name : RegistryError → Char
  | .duplicate name _ => name
  | .unknown name => name
  | .reserved name => name

/-- The wording of an error. -/
def message : RegistryError → String
  | .duplicate name partition =>
    "command '" ++ name.toString ++ "' already exists in " ++ partition.name ++ " commands"
  | .unknown name => "command '" ++ name.toString ++ "' does not exist in custom commands"
  | .reserved name =>
    "'" ++ name.toString ++ "' is a reserved loop marker and cannot be registered"

end RegistryError

namespace Registry

/-- Whether a name belongs to a built-in command. -/
def isBuiltin (name : Char) : Bool := (Builtin.ofSymbol? name).isSome

/-- A name that a custom command may take. -/
structure Free (name : Char) : Prop where
  ne_loopOpen : name ≠ loopOpen
  ne_loopClose : name ≠ loopClose
  not_builtin : isBuiltin name = false

end Registry

/-- The custom commands with their names, in ascending order of the names. -/
structure Registry where
  custom : List (Char × Routine) := []
  ascending : custom.Pairwise (fun first second => first.1 < second.1) := by
    exact List.Pairwise.nil
  free : ∀ entry ∈ custom, Registry.Free entry.1 := by
    exact fun _ member => absurd member List.not_mem_nil

namespace Registry

/-- The registry without custom commands. -/
def empty : Registry := {}

instance : Inhabited Registry := ⟨empty⟩

/-- The routine registered under a name. -/
def customRoutine? (r : Registry) (name : Char) : Option Routine := r.custom.lookup name

/-- The routine of a character, built-in or custom. -/
def resolve (r : Registry) (name : Char) : Option Routine :=
  match Builtin.ofSymbol? name with
  | some b => some b.routine
  | none => r.customRoutine? name

/-- Whether a name belongs to a custom command. -/
def isCustom (r : Registry) (name : Char) : Bool := (r.customRoutine? name).isSome

/-- Whether a name belongs to any command. -/
def contains (r : Registry) (name : Char) : Bool := isBuiltin name || r.isCustom name

/-- The custom names in ascending order. -/
def customNames (r : Registry) : List Char := r.custom.map Prod.fst

theorem isCustom_iff_exists {r : Registry} {name : Char} :
    r.isCustom name ↔ ∃ entry ∈ r.custom, entry.1 = name := by
  rw [isCustom, customRoutine?, List.lookup_isSome_iff]
  constructor
  · rintro ⟨entry, member, same⟩
    exact ⟨entry, member, (beq_iff_eq.mp same).symm⟩
  · rintro ⟨entry, member, rfl⟩
    exact ⟨entry, member, beq_self_eq_true _⟩

/-- A name that no custom command may take has none. -/
theorem customRoutine?_of_not_free {r : Registry} {name : Char} (taken : ¬ Free name) :
    r.customRoutine? name = none := by
  rw [customRoutine?, List.lookup_eq_none_iff]
  intro entry member
  exact bne_iff_ne.mpr fun equal => taken (equal ▸ r.free entry member)

/-- The opening marker is no command. -/
@[simp] theorem resolve_loopOpen (r : Registry) : r.resolve loopOpen = none :=
  customRoutine?_of_not_free fun free => free.ne_loopOpen rfl

/-- The closing marker is no command. -/
@[simp] theorem resolve_loopClose (r : Registry) : r.resolve loopClose = none :=
  customRoutine?_of_not_free fun free => free.ne_loopClose rfl

/-- The names that resolve are those of the commands. -/
theorem isSome_resolve (r : Registry) (name : Char) :
    (r.resolve name).isSome = r.contains name := by
  unfold resolve contains isBuiltin isCustom
  cases Builtin.ofSymbol? name <;> simp

/-- Put an entry in front of the first one with a greater name. -/
def insert (name : Char) (routine : Routine) : List (Char × Routine) → List (Char × Routine)
  | [] => [(name, routine)]
  | entry :: rest =>
    if name < entry.1 then (name, routine) :: entry :: rest
    else entry :: insert name routine rest

theorem mem_insert {name : Char} {routine : Routine} {entries : List (Char × Routine)}
    {entry : Char × Routine} :
    entry ∈ insert name routine entries ↔ entry = (name, routine) ∨ entry ∈ entries := by
  induction entries with
  | nil => simp [insert]
  | cons first rest ih =>
    unfold insert
    split
    · simp
    · simp only [List.mem_cons, ih]
      exact or_left_comm

/-- Putting in a name that is not there keeps the order. -/
theorem pairwise_insert {name : Char} (routine : Routine) {entries : List (Char × Routine)}
    (ascending : entries.Pairwise fun first second => first.1 < second.1)
    (absent : ∀ entry ∈ entries, entry.1 ≠ name) :
    (insert name routine entries).Pairwise fun first second => first.1 < second.1 := by
  induction entries with
  | nil => simp [insert]
  | cons first rest ih =>
    obtain ⟨below, ordered⟩ := List.pairwise_cons.mp ascending
    unfold insert
    split
    · next before =>
      refine List.pairwise_cons.mpr ⟨fun entry member => ?_, ascending⟩
      rcases List.mem_cons.mp member with rfl | later
      · exact before
      · exact Char.lt_trans before (below entry later)
    · next after =>
      have first_lt : first.1 < name := by
        rcases Char.le_total first.1 name with le | le
        · exact Char.not_le.mp fun ge =>
            absent first List.mem_cons_self (Char.le_antisymm le ge)
        · exact absurd (Char.le_antisymm le (Char.not_lt.mp after)).symm
            (absent first List.mem_cons_self)
      refine List.pairwise_cons.mpr ⟨fun entry member => ?_,
        ih ordered fun entry member => absent entry (List.mem_cons_of_mem _ member)⟩
      rcases mem_insert.mp member with rfl | later
      · exact first_lt
      · exact below entry later

/-- Put in a command under a name that may be taken and is not. -/
def put (r : Registry) (name : Char) (routine : Routine) (free : Free name)
    (absent : ¬ r.isCustom name) : Registry where
  custom := insert name routine r.custom
  ascending := pairwise_insert routine r.ascending fun entry member equal =>
    absent (isCustom_iff_exists.mpr ⟨entry, member, equal⟩)
  free := fun entry member => (mem_insert.mp member).elim (· ▸ free) (r.free entry)

/-- Register a custom command. -/
def add (r : Registry) (name : Char) (routine : Routine) : Except RegistryError Registry :=
  if marker : name = loopOpen ∨ name = loopClose then .error (.reserved name)
  else if builtin : isBuiltin name then .error (.duplicate name .builtin)
  else if taken : r.isCustom name then .error (.duplicate name .custom)
  else
    .ok (r.put name routine
      ⟨fun equal => marker (.inl equal), fun equal => marker (.inr equal), by simpa using builtin⟩
      taken)

/-- Remove a custom command. -/
def remove (r : Registry) (name : Char) : Except RegistryError Registry :=
  if r.isCustom name then
    .ok { custom := r.custom.filter fun entry => entry.1 ≠ name
          ascending := r.ascending.filter _
          free := fun entry member => r.free entry (List.mem_filter.mp member).1 }
  else .error (.unknown name)

/-- A one-line summary of a registry: the names of its custom commands. -/
def summary (r : Registry) : String :=
  "CommandRegistry \x7b custom: [" ++
    ", ".intercalate (r.customNames.map Text.Quoted.character) ++ "] \x7d"

end Registry

end RingTape
