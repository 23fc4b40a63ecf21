/-
# Runs of a highlighted line

The highlighter reads a line once, and keeps the run it is in apart from the parts that are
complete. At every character the two together are the runs of what it has read: joined they
give it back, none is empty, and the role changes from each to the next and only there. A line
has no other runs. They are its coarsest cut by role, since every cut that keeps characters of
different roles apart comes from them by further cutting.

What a character is to the highlighter and whether the filter for instructions keeps it are
found in different ways, and on different lists of characters. They agree all the same, also
where a custom name is one of a built-in command or of a marker, which neither of them heeds.
-/

import Mathlib.Data.List.Chain
import RingTape.Execution.Highlight

namespace RingTape

/-! ## Roles -/

namespace Role

/-- The comments are the characters that the filter drops. -/
theorem of_eq_comment_iff (custom : List Char) (c : Char) :
    of custom c = .comment ↔ isInstruction custom c = false := by
  have known := mem_instructions_iff c
  rw [isInstruction, Bool.or_eq_false_iff, ← Bool.not_eq_true, List.contains_iff_mem, known,
    Registry.isBuiltin]
  unfold of
  cases Builtin.ofSymbol? c with
  | some b => simp
  | none =>
    by_cases marker : c = loopOpen ∨ c = loopClose
    · simp [marker]
    · cases custom.contains c <;> simp [marker]

/-- The roles in the order of their constructors. -/
def all : List Role := Builtin.all.map .builtin ++ [.loop, .custom, .comment]

theorem mem_all (role : Role) : role ∈ all := by
  cases role with
  | builtin b => cases b <;> decide
  | loop | custom | comment => decide

/-- Every role has a style of its own. -/
theorem style_injective : Function.Injective style := by
  have distinct : ∀ role ∈ all, ∀ other ∈ all, role.style = other.style → role = other := by
    decide
  exact fun role other => distinct role role.mem_all other other.mem_all

end Role

namespace Highlighting

variable {custom line seen : List Char} {parts runs cut fine coarse : List (List Char)}

/-! ## Cuts of a line -/

/-- A line cut into parts. None of them is empty, and in each all characters play one role. -/
structure IsCut (custom line : List Char) (parts : List (List Char)) : Prop where
  flatten_eq : parts.flatten = line
  ne_nil : ∀ part ∈ parts, part ≠ []
  alike : ∀ part ∈ parts, ∀ c ∈ part, ∀ d ∈ part, Role.of custom c = Role.of custom d

/-- A line cut wherever the role changes, and nowhere else. -/
structure AreRuns (custom line : List Char) (parts : List (List Char)) : Prop
    extends IsCut custom line parts where
  changes : parts.IsChain fun part next =>
    ∀ c ∈ part, ∀ d ∈ next, Role.of custom c ≠ Role.of custom d

/-- Each part of the second cut consists of neighbouring parts of the first, in their order. -/
inductive Refines : List (List Char) → List (List Char) → Prop
  | nil : Refines [] []
  | cons (group : List (List Char)) {fine coarse : List (List Char)} (rest : Refines fine coarse) :
    Refines (group ++ fine) (group.flatten :: coarse)

/-- A further part in front can be joined to the first part of the coarser cut. -/
theorem Refines.cons_append {part first : List Char} (refines : Refines fine (first :: coarse)) :
    Refines (part :: fine) ((part ++ first) :: coarse) := by
  cases refines with
  | cons group rest => exact .cons (part :: group) rest

/-- It takes parts to make up one that is not empty. -/
theorem length_pos_of_flatten_ne_nil {group : List (List Char)} (nonempty : group.flatten ≠ []) :
    0 < group.length :=
  List.length_pos_iff.mpr fun empty => nonempty (congrArg List.flatten empty)

/-- A coarser cut has no more parts, -/
theorem Refines.length_le (refines : Refines fine coarse) (nonempty : ∀ part ∈ coarse, part ≠ []) :
    coarse.length ≤ fine.length := by
  induction refines with
  | nil => exact Nat.le_refl 0
  | cons group rest ih =>
    obtain ⟨first, later⟩ := List.forall_mem_cons.mp nonempty
    have some_part := length_pos_of_flatten_ne_nil first
    have counted := ih later
    rw [List.length_append, List.length_cons]
    omega

/-- and if it has as many, nothing was joined. -/
theorem Refines.eq_of_length_le (refines : Refines fine coarse)
    (nonempty : ∀ part ∈ coarse, part ≠ []) (short : fine.length ≤ coarse.length) :
    fine = coarse := by
  induction refines with
  | nil => rfl
  | cons group rest ih =>
    obtain ⟨first, later⟩ := List.forall_mem_cons.mp nonempty
    have some_part := length_pos_of_flatten_ne_nil first
    have counted := rest.length_le later
    rw [List.length_append, List.length_cons] at short
    obtain ⟨single, rfl⟩ := List.length_eq_one_iff.mp (show group.length = 1 by omega)
    rw [ih later (by omega), List.flatten_singleton, List.singleton_append]

/-- Cuts that refine each other are the same. -/
theorem Refines.antisymm (there : Refines fine coarse) (back : Refines coarse fine)
    (fine_ne_nil : ∀ part ∈ fine, part ≠ []) (coarse_ne_nil : ∀ part ∈ coarse, part ≠ []) :
    fine = coarse :=
  there.eq_of_length_le coarse_ne_nil (back.length_le fine_ne_nil)

theorem IsCut.tail {first : List Char} (isCut : IsCut custom line (first :: parts)) :
    IsCut custom parts.flatten parts where
  flatten_eq := rfl
  ne_nil part member := isCut.ne_nil part (List.mem_cons_of_mem first member)
  alike part member := isCut.alike part (List.mem_cons_of_mem first member)

theorem AreRuns.tail {first : List Char} (areRuns : AreRuns custom line (first :: parts)) :
    AreRuns custom parts.flatten parts where
  toIsCut := areRuns.toIsCut.tail
  changes := areRuns.changes.tail

/-- Runs stay runs when the first of them is shortened at its beginning. -/
theorem AreRuns.shorten {front back : List Char}
    (areRuns : AreRuns custom line ((front ++ back) :: parts)) (nonempty : back ≠ []) :
    AreRuns custom (back ++ parts.flatten) (back :: parts) where
  flatten_eq := rfl
  ne_nil := List.forall_mem_cons.mpr ⟨nonempty, areRuns.tail.ne_nil⟩
  alike := by
    refine List.forall_mem_cons.mpr ⟨fun c c_mem d d_mem => ?_, areRuns.tail.alike⟩
    exact areRuns.alike (front ++ back) List.mem_cons_self c (List.mem_append_right front c_mem) d
      (List.mem_append_right front d_mem)
  changes := by
    obtain ⟨first, later⟩ := List.isChain_cons.mp areRuns.changes
    refine List.isChain_cons.mpr ⟨fun next next_mem c c_mem => ?_, later⟩
    exact first next next_mem c (List.mem_append_right front c_mem)

/-- Characters of one role at the beginning of a line do not reach beyond its first run. -/
theorem AreRuns.exists_rest {run part rest : List Char}
    (areRuns : AreRuns custom line (run :: runs)) (spelled : part ++ rest = line)
    (alike : ∀ c ∈ part, ∀ d ∈ part, Role.of custom c = Role.of custom d) :
    ∃ left, run = part ++ left ∧ rest = left ++ runs.flatten := by
  have joined : part ++ rest = run ++ runs.flatten := spelled.trans areRuns.flatten_eq.symm
  rcases List.append_eq_append_iff.mp joined with ⟨left, run_eq, rest_eq⟩ | ⟨more, part_eq, more_eq⟩
  · exact ⟨left, run_eq, rest_eq⟩
  · cases more with
    | nil => exact ⟨[], by simpa using part_eq.symm, more_eq.symm⟩
    | cons d _ =>
      -- Behind the run stands a character of the next one, which has another role.
      obtain ⟨c, c_mem⟩ := List.exists_mem_of_ne_nil run (areRuns.ne_nil run List.mem_cons_self)
      have same : Role.of custom c = Role.of custom d :=
        alike c (part_eq ▸ List.mem_append_left _ c_mem) d
          (part_eq ▸ List.mem_append_right _ List.mem_cons_self)
      cases runs with
      | nil => cases more_eq
      | cons next _ =>
        obtain ⟨e, next_rest, rfl⟩ := List.exists_cons_of_ne_nil
          (areRuns.ne_nil next (List.mem_cons_of_mem run List.mem_cons_self))
        obtain ⟨rfl, -⟩ := List.cons.inj more_eq
        have differ := (List.isChain_cons_cons.mp areRuns.changes).1 c c_mem e List.mem_cons_self
        exact absurd same differ

/-- Every cut by role refines the runs. -/
theorem AreRuns.refines_of_isCut (areRuns : AreRuns custom line runs)
    (isCut : IsCut custom line cut) : Refines cut runs := by
  induction cut generalizing line runs with
  | nil =>
    obtain rfl : [] = line := isCut.flatten_eq
    cases runs with
    | nil => exact .nil
    | cons run others =>
      have empty : run = [] := (List.append_eq_nil_iff.mp areRuns.flatten_eq).1
      exact absurd empty (areRuns.ne_nil run List.mem_cons_self)
  | cons part rest ih =>
    cases runs with
    | nil =>
      obtain rfl : [] = line := areRuns.flatten_eq
      have empty : part = [] := (List.append_eq_nil_iff.mp isCut.flatten_eq).1
      exact absurd empty (isCut.ne_nil part List.mem_cons_self)
    | cons run others =>
      -- The part is the beginning of the run. What it leaves of it, if anything, is the first
      -- run of the rest of the line.
      obtain ⟨left, rfl, rest_eq⟩ :=
        areRuns.exists_rest isCut.flatten_eq (isCut.alike part List.mem_cons_self)
      have restCut := isCut.tail
      rw [rest_eq] at restCut
      by_cases ended : left = []
      · subst ended
        exact .cons [part] (ih areRuns.tail restCut)
      · exact (ih (areRuns.shorten ended) restCut).cons_append

/-- A cut by role that the runs refine is that into the runs. -/
theorem AreRuns.eq_of_refines (areRuns : AreRuns custom line runs) (isCut : IsCut custom line cut)
    (refines : Refines runs cut) : cut = runs :=
  (areRuns.refines_of_isCut isCut).antisymm refines isCut.ne_nil areRuns.ne_nil

/-- A line has its runs only. -/
theorem AreRuns.unique (areRuns : AreRuns custom line runs) (others : AreRuns custom line parts) :
    parts = runs :=
  areRuns.eq_of_refines others.toIsCut (others.refines_of_isCut areRuns.toIsCut)

/-! ## The loop of the highlighter -/

/-- The runs of a line, each with the role of its characters. -/
structure AreLabelled (custom line : List Char) (parts : List (Role × List Char)) : Prop where
  flatMap_eq : parts.flatMap Prod.snd = line
  ne_nil : ∀ part ∈ parts, part.2 ≠ []
  of_eq : ∀ part ∈ parts, ∀ c ∈ part.2, Role.of custom c = part.1
  changes : (parts.map Prod.fst).IsChain (· ≠ ·)

variable {labelled : List (Role × List Char)} {role : Role} {text : List Char} {h : Highlighting}
  {c : Char}

/-- The first character of a line is a run. -/
theorem areLabelled_singleton (custom : List Char) (c : Char) :
    AreLabelled custom [c] [(Role.of custom c, [c])] where
  flatMap_eq := rfl
  ne_nil := by simp
  of_eq := by simp
  changes := .singleton _

/-- A character in the role of the last run makes that run longer. -/
theorem AreLabelled.extend (areLabelled : AreLabelled custom seen (labelled ++ [(role, text)]))
    (same : role = Role.of custom c) :
    AreLabelled custom (seen ++ [c]) (labelled ++ [(role, text ++ [c])]) := by
  obtain ⟨rfl, ne_nil, of_eq, changes⟩ := areLabelled
  rw [List.forall_mem_append, List.forall_mem_singleton] at ne_nil of_eq
  refine ⟨by simp, ?_, ?_, by simpa using changes⟩
  · rw [List.forall_mem_append, List.forall_mem_singleton]
    exact ⟨ne_nil.1, List.append_ne_nil_of_left_ne_nil ne_nil.2 [c]⟩
  · rw [List.forall_mem_append, List.forall_mem_singleton, List.forall_mem_append,
      List.forall_mem_singleton]
    exact ⟨of_eq.1, of_eq.2, same.symm⟩

/-- A character in another role begins a run. -/
theorem AreLabelled.begin (areLabelled : AreLabelled custom seen (labelled ++ [(role, text)]))
    (other : role ≠ Role.of custom c) :
    AreLabelled custom (seen ++ [c]) (labelled ++ [(role, text)] ++ [(Role.of custom c, [c])]) := by
  obtain ⟨rfl, ne_nil, of_eq, changes⟩ := areLabelled
  refine ⟨by simp, ?_, ?_, ?_⟩
  · rw [List.forall_mem_append, List.forall_mem_singleton]
    exact ⟨ne_nil, List.cons_ne_nil c []⟩
  · rw [List.forall_mem_append, List.forall_mem_singleton, List.forall_mem_singleton]
    exact ⟨of_eq, rfl⟩
  · rw [List.map_append]
    exact changes.append (.singleton _) (by simpa using other)

/-- What the highlighter holds when it has read some characters: their runs, and no complete
part before it has a run. -/
structure Covers (custom seen : List Char) (h : Highlighting) : Prop where
  areLabelled : AreLabelled custom seen h.close
  parts_eq_nil : h.run = none → h.parts = []

theorem covers_nil (custom : List Char) : Covers custom [] {} where
  areLabelled := ⟨rfl, by simp [close], by simp [close], .nil⟩
  parts_eq_nil _ := rfl

/-- One more character is covered when it has been taken. -/
theorem Covers.push (covers : Covers custom seen h) (c : Char) :
    Covers custom (seen ++ [c]) (h.push custom c) := by
  obtain ⟨parts, run⟩ := h
  obtain ⟨areLabelled, parts_eq_nil⟩ := covers
  cases run with
  | none =>
    -- Behind a complete part the character might have to go on with that part.
    obtain rfl : parts = [] := parts_eq_nil rfl
    obtain rfl : [] = seen := areLabelled.flatMap_eq
    exact ⟨areLabelled_singleton custom c, nofun⟩
  | some run =>
    obtain ⟨role, text⟩ := run
    by_cases same : role = Role.of custom c
    · rw [push_of_eq parts text same]
      exact ⟨areLabelled.extend same, nofun⟩
    · rw [push_of_ne parts text same]
      exact ⟨areLabelled.begin same, nofun⟩

theorem Covers.foldl (covers : Covers custom seen h) (rest : List Char) :
    Covers custom (seen ++ rest) (rest.foldl (Highlighting.push custom) h) := by
  induction rest generalizing seen h with
  | nil => rwa [List.append_nil]
  | cons c rest ih =>
    have further := ih (covers.push c)
    rwa [List.append_assoc] at further

/-- The parts of a highlighted line are its runs with their roles. -/
theorem areLabelled_highlight (custom line : List Char) :
    AreLabelled custom line (highlight custom line) :=
  ((covers_nil custom).foldl line).areLabelled

theorem AreLabelled.areRuns (areLabelled : AreLabelled custom line labelled) :
    AreRuns custom line (labelled.map Prod.snd) where
  flatten_eq := areLabelled.flatMap_eq
  ne_nil := List.forall_mem_map.mpr areLabelled.ne_nil
  alike := List.forall_mem_map.mpr fun part member c c_mem d d_mem =>
    (areLabelled.of_eq part member c c_mem).trans (areLabelled.of_eq part member d d_mem).symm
  changes := by
    refine (List.isChain_map Prod.snd).mpr
      (((List.isChain_map Prod.fst).mp areLabelled.changes).imp_of_mem_imp ?_)
    intro part next part_mem next_mem differ c c_mem d d_mem
    rwa [areLabelled.of_eq part part_mem c c_mem, areLabelled.of_eq next next_mem d d_mem]

/-! ## Comments -/

/-- The parts in the style of comments hold the characters that the filter drops. -/
theorem AreLabelled.style_eq_iff (areLabelled : AreLabelled custom line labelled) :
    ∀ part ∈ labelled, ∀ c ∈ part.2,
      part.1.style = Role.comment.style ↔ isInstruction custom c = false := by
  intro part member c c_mem
  rw [Role.style_injective.eq_iff, ← areLabelled.of_eq part member c c_mem,
    Role.of_eq_comment_iff]

/-- Character by character, a line is in the style of comments where the filter drops it. -/
theorem AreLabelled.flatMap_style_eq (areLabelled : AreLabelled custom line labelled) :
    (labelled.flatMap fun part =>
      part.2.map fun c => (c, decide (part.1.style = Role.comment.style))) =
      line.map fun c => (c, !isInstruction custom c) := by
  rw [← areLabelled.flatMap_eq, List.map_flatMap]
  refine List.flatMap_congr fun part member => List.map_congr_left fun c c_mem => ?_
  have comment := areLabelled.style_eq_iff part member c c_mem
  cases kept : isInstruction custom c <;> simp [comment, kept]

/-- Without the parts in the style of comments, what the filter keeps is left. -/
theorem flatMap_filter_style_ne
    (comment : ∀ part ∈ labelled, ∀ c ∈ part.2,
      part.1.style = Role.comment.style ↔ isInstruction custom c = false) :
    (labelled.filter fun part => part.1.style ≠ Role.comment.style).flatMap Prod.snd =
      (labelled.flatMap Prod.snd).filter (isInstruction custom) := by
  induction labelled with
  | nil => rfl
  | cons part rest ih =>
    obtain ⟨here, later⟩ := List.forall_mem_cons.mp comment
    rw [List.flatMap_cons, List.filter_append, ← ih later]
    by_cases dim : part.1.style = Role.comment.style
    · have dropped : part.2.filter (isInstruction custom) = [] :=
        List.filter_eq_nil_iff.mpr fun c c_mem => Bool.eq_false_iff.mp ((here c c_mem).mp dim)
      rw [List.filter_cons_of_neg (by simpa using dim), dropped, List.nil_append]
    · have kept : part.2.filter (isInstruction custom) = part.2 :=
        List.filter_eq_self.mpr fun c c_mem =>
          eq_true_of_ne_false (mt (here c c_mem).mpr dim)
      rw [List.filter_cons_of_pos (by simpa using dim), List.flatMap_cons, kept]

/-! ## The styled line -/

/-- The texts of parts make up the text of their characters. -/
theorem join_map_ofList (labelled : List (Role × List Char)) :
    String.join (labelled.map fun part => String.ofList part.2) =
      String.ofList (labelled.flatMap Prod.snd) := by
  rw [← String.toList_inj, String.toList_join, String.toList_ofList, List.flatMap_map]
  exact List.flatMap_congr fun part _ => String.toList_ofList

/-- Whatever the custom names are, the parts of a line spell it, and they are its runs: none is
empty, the characters of each play one role, and neighbours differ in role. No other cut of the
line has that property, and this one is its coarsest cut by role, which any other refines and
which refines no other. Each part has the style of the role of its characters, and no two roles
share a style. Character by character the parts in the style of comments hold what the filter
for instructions drops, and the other parts spell what it keeps. -/
theorem styled_splits_by_role (custom : List Char) (line : String) :
    let parts := styled custom line
    let texts := parts.map fun part => part.2.toList
    String.join (parts.map Prod.snd) = line ∧
    AreRuns custom line.toList texts ∧
    (∀ runs, AreRuns custom line.toList runs → runs = texts) ∧
    (∀ cut, IsCut custom line.toList cut →
      Refines cut texts ∧ (Refines texts cut → cut = texts)) ∧
    (∀ part ∈ parts, ∀ c ∈ part.2.toList, part.1 = (Role.of custom c).style) ∧
    Function.Injective Role.style ∧
    (parts.flatMap fun part =>
      part.2.toList.map fun c => (c, decide (part.1 = Role.comment.style))) =
      (line.toList.map fun c => (c, !isInstruction custom c)) ∧
    String.join ((parts.filter fun part => part.1 ≠ Role.comment.style).map Prod.snd) =
      instructionsOnly line custom := by
  intro parts texts
  have areLabelled := areLabelled_highlight custom line.toList
  have texts_eq : texts = (highlight custom line.toList).map Prod.snd := by
    simp [texts, parts, styled, Function.comp_def]
  have areRuns : AreRuns custom line.toList texts := texts_eq ▸ areLabelled.areRuns
  refine ⟨?_, areRuns, fun runs others => areRuns.unique others,
    fun cut isCut => ⟨areRuns.refines_of_isCut isCut, areRuns.eq_of_refines isCut⟩, ?_,
    Role.style_injective, ?_, ?_⟩
  · simp only [parts, styled, List.map_map, Function.comp_def]
    rw [join_map_ofList, areLabelled.flatMap_eq, String.ofList_toList]
  · refine List.forall_mem_map.mpr fun part member c c_mem => ?_
    rw [String.toList_ofList] at c_mem
    rw [areLabelled.of_eq part member c c_mem]
  · rw [← areLabelled.flatMap_style_eq]
    simp [parts, styled, List.flatMap_map]
  · simp only [parts, styled, List.filter_map, List.map_map, Function.comp_def]
    rw [join_map_ofList, flatMap_filter_style_ne areLabelled.style_eq_iff, areLabelled.flatMap_eq,
      instructionsOnly]

/-- Both markers play one role, and a name for one of them changes nothing. -/
example : (styled ['*', '['] "++*[] x").map Prod.snd = ["++", "*", "[]", " x"] := by decide

end Highlighting

end RingTape
