/-
# Programs as trees of loops

A block is a program in the form of its loops: commands and loops one after the
other, the body of a loop being a block again. A block is written down as the text
that spells it, and a balanced text is read back as the one block that it spells.
Any character that is no marker counts as a command, whether it has a meaning or
not.

The reader goes through the text from its end, so that a closing marker is met
before the body it closes.
-/

import RingTape.Proofs.Program.Nesting

namespace RingTape

open Nesting

/-- Commands and loops one after the other. -/
inductive Block
  | empty
  | command (name : Char) (plain : name ≠ loopOpen ∧ name ≠ loopClose) (rest : Block)
  | loop (body rest : Block)

namespace Block

/-- The text of a block. -/
def spell : Block → List Char
  | empty => []
  | command name _ rest => name :: rest.spell
  | loop body rest => loopOpen :: (body.spell ++ loopClose :: rest.spell)

/-- Put a character in front of a text that was read. The text is given by the blocks
between those of its closing markers that it does not open. -/
def extend (c : Char) (levels : List Block) : Option (List Block) :=
  if opened : c = loopOpen then
    match levels with
    | body :: rest :: outer => some (loop body rest :: outer)
    | _ => none
  else if closed : c = loopClose then some (empty :: levels)
  else
    match levels with
    | rest :: outer => some (command c ⟨opened, closed⟩ rest :: outer)
    | [] => none

/-- Read a text that may close more loops than it opens. -/
def parseLevels : List Char → Option (List Block)
  | [] => some [empty]
  | c :: text => (parseLevels text).bind (extend c)

/-- Read a text. -/
def parse (text : List Char) : Option Block :=
  match parseLevels text with
  | some [block] => some block
  | _ => none

/-- The text of blocks with a closing marker before each but the first. -/
def spellLevels : List Block → List Char
  | [] => []
  | block :: outer => block.spell ++ outer.flatMap fun b => loopClose :: b.spell

theorem extend_open (body rest : Block) (outer : List Block) :
    extend loopOpen (body :: rest :: outer) = some (loop body rest :: outer) := rfl

theorem extend_close (levels : List Block) : extend loopClose levels = some (empty :: levels) :=
  rfl

theorem extend_command {name : Char} (plain : name ≠ loopOpen ∧ name ≠ loopClose) (rest : Block)
    (outer : List Block) :
    extend name (rest :: outer) = some (command name plain rest :: outer) := by
  unfold extend
  rw [dif_neg plain.1, dif_neg plain.2]

/-- What was read with one character more spells that character too. -/
theorem spellLevels_extend {c : Char} {levels more : List Block} (nonempty : levels ≠ [])
    (extended : extend c levels = some more) :
    more ≠ [] ∧ spellLevels more = c :: spellLevels levels := by
  obtain ⟨rest, outer, rfl⟩ := List.exists_cons_of_ne_nil nonempty
  by_cases opened : c = loopOpen
  · subst opened
    cases outer with
    | nil => cases extended
    | cons after outer =>
      cases extended
      exact ⟨List.cons_ne_nil _ _, by simp [spellLevels, spell]⟩
  · by_cases closed : c = loopClose
    · subst closed
      cases extended
      exact ⟨List.cons_ne_nil _ _, by simp [spellLevels, spell]⟩
    · rw [extend_command ⟨opened, closed⟩] at extended
      cases extended
      exact ⟨List.cons_ne_nil _ _, by simp [spellLevels, spell]⟩

/-- Reading loses nothing. -/
theorem spellLevels_parseLevels {text : List Char} {levels : List Block}
    (read : parseLevels text = some levels) : levels ≠ [] ∧ spellLevels levels = text := by
  induction text generalizing levels with
  | nil =>
    cases read
    exact ⟨List.cons_ne_nil _ _, rfl⟩
  | cons c text ih =>
    obtain ⟨before, readBefore, extended⟩ := Option.bind_eq_some_iff.mp read
    obtain ⟨nonempty, spelled⟩ := ih readBefore
    rw [← spelled]
    exact spellLevels_extend nonempty extended

/-- The text of a block in front of a text is read as that block. -/
theorem parseLevels_spell_append (block : Block) {text : List Char} {outer : List Block}
    (read : parseLevels text = some (empty :: outer)) :
    parseLevels (block.spell ++ text) = some (block :: outer) := by
  induction block generalizing text outer with
  | empty => exact read
  | command name plain rest ih =>
    rw [spell, List.cons_append, parseLevels, ih read, Option.bind_some, extend_command plain]
  | loop body rest ihBody ihRest =>
    have closed : parseLevels (loopClose :: (rest.spell ++ text)) =
        some (empty :: rest :: outer) := by
      rw [parseLevels, ihRest read, Option.bind_some, extend_close]
    rw [spell, List.cons_append, List.append_assoc, List.cons_append, parseLevels,
      ihBody closed, Option.bind_some, extend_open]

/-- A text is read as a block exactly if the block spells it. -/
theorem parse_eq_some_iff {text : List Char} {block : Block} :
    parse text = some block ↔ block.spell = text := by
  constructor
  · intro read
    unfold parse at read
    split at read
    · next single levels =>
      cases read
      obtain ⟨-, spelled⟩ := spellLevels_parseLevels levels
      simpa [spellLevels] using spelled
    · cases read
  · rintro rfl
    have ended : parseLevels [] = some [empty] := rfl
    have levels := parseLevels_spell_append block ended
    rw [List.append_nil] at levels
    rw [parse, levels]

/-! ## Balanced texts are those of blocks -/

/-- A text no end of which opens more than it closes is read, with one block more
than it closes too much. -/
theorem exists_parseLevels {text : List Char}
    (ends : ∀ n, opens (text.drop n) ≤ closes (text.drop n)) :
    ∃ levels, parseLevels text = some levels ∧
      levels.length + opens text = closes text + 1 := by
  induction text with
  | nil => exact ⟨[empty], rfl, rfl⟩
  | cons c text ih =>
    obtain ⟨levels, read, counts⟩ := ih fun n => ends (n + 1)
    have whole := ends 0
    rw [List.drop_zero, opens_cons, closes_cons] at whole
    rw [parseLevels, read, Option.bind_some, opens_cons, closes_cons]
    by_cases opened : c = loopOpen
    · subst opened
      rw [if_pos rfl, if_neg loopOpen_ne_loopClose] at whole ⊢
      match levels with
      | [] => simp at counts; omega
      | [_] => simp at counts; omega
      | body :: rest :: outer =>
        refine ⟨_, extend_open body rest outer, ?_⟩
        simp only [List.length_cons] at counts ⊢
        omega
    · by_cases closed : c = loopClose
      · subst closed
        rw [if_pos rfl, if_neg loopOpen_ne_loopClose.symm]
        refine ⟨_, extend_close levels, ?_⟩
        rw [List.length_cons]
        omega
      · rw [if_neg opened, if_neg closed] at whole ⊢
        match levels with
        | [] => simp at counts; omega
        | rest :: outer =>
          refine ⟨_, extend_command ⟨opened, closed⟩ rest outer, ?_⟩
          simpa using counts

/-- A balanced text is the text of a block. -/
theorem exists_parse_of_balanced {text : List Char} (balanced : Balanced text) :
    ∃ block, parse text = some block := by
  obtain ⟨guarded, equal⟩ := balanced
  have ends (n : Nat) : opens (text.drop n) ≤ closes (text.drop n) := by
    have start := guardedTo_of_length guarded n n le_rfl
    have opened := opens_append (text.take n) (text.drop n)
    have closed := closes_append (text.take n) (text.drop n)
    rw [List.take_append_drop] at opened closed
    omega
  obtain ⟨levels, read, counts⟩ := exists_parseLevels ends
  obtain ⟨block, rfl⟩ := List.length_eq_one_iff.mp (show levels.length = 1 by omega)
  exact ⟨block, by rw [parse, read]⟩

/-- A search for a closing marker passes over a block. -/
theorem closeIn_spell_append (block : Block) (depth : Nat) (text : List Char) :
    closeIn depth (block.spell ++ text) = (closeIn depth text).map (· + block.spell.length) := by
  induction block generalizing depth text with
  | empty => exact Option.map_id'.symm
  | command name plain rest ih =>
    rw [spell, List.cons_append, closeIn_other depth _ plain.1 plain.2, ih, Option.map_map]
    rfl
  | loop body rest ihBody ihRest =>
    have closed : closeIn (depth + 1) (loopClose :: (rest.spell ++ text)) =
        (closeIn depth text).map (· + rest.spell.length + 1) := by
      rw [closeIn_succ_close, ihRest, Option.map_map]
      rfl
    rw [spell, List.cons_append, List.append_assoc, List.cons_append, closeIn_open, ihBody, closed,
      Option.map_map, Option.map_map]
    congr 1
    funext n
    simp only [Function.comp_apply, List.length_cons, List.length_append]
    omega

/-! ## Blocks in a text -/

/-- A block is spelled out from a position of a text on. -/
def SpelledAt (text : List Char) (position : Nat) (block : Block) : Prop :=
  block.spell <+: text.drop position

variable {text : List Char} {position : Nat}

/-- A whole text is spelled out from its beginning on. -/
theorem spelledAt_zero {block : Block} (spelled : block.spell = text) :
    SpelledAt text 0 block := by
  subst spelled
  exact ⟨[], List.append_nil _⟩

/-- What stands in a text that goes on with a given one. -/
theorem getElem?_of_drop_eq {later : List Char} (drop : text.drop position = later) (n : Nat) :
    text[position + n]? = later[n]? ∧ text.drop (position + n) = later.drop n := by
  subst drop
  exact ⟨List.getElem?_drop.symm, List.drop_drop.symm⟩

theorem SpelledAt.command {name : Char} {plain : name ≠ loopOpen ∧ name ≠ loopClose}
    {rest : Block} (spelled : SpelledAt text position (.command name plain rest)) :
    text[position]? = some name ∧ SpelledAt text (position + 1) rest := by
  obtain ⟨post, drop⟩ := spelled
  exact ⟨(getElem?_of_drop_eq drop.symm 0).1, post, (getElem?_of_drop_eq drop.symm 1).2.symm⟩

/-- A loop has its header where it begins, and the partner behind its body. -/
theorem SpelledAt.loop {body rest : Block} (spelled : SpelledAt text position (.loop body rest)) :
    text[position]? = some loopOpen ∧
      partner text position = some (position + 1 + body.spell.length) ∧
      SpelledAt text (position + 1) body ∧
      SpelledAt text (position + 1 + body.spell.length + 1) rest := by
  obtain ⟨post, drop⟩ := spelled
  have inside : text.drop (position + 1) = body.spell ++ loopClose :: (rest.spell ++ post) := by
    rw [(getElem?_of_drop_eq drop.symm 1).2]
    simp [spell]
  have behind : text.drop (position + 1 + (body.spell.length + 1)) = rest.spell ++ post := by
    rw [(getElem?_of_drop_eq inside _).2, ← List.drop_drop, List.drop_left, List.drop_one,
      List.tail_cons]
  refine ⟨(getElem?_of_drop_eq drop.symm 0).1, ?_, ⟨_, inside.symm⟩, ⟨post, behind.symm⟩⟩
  rw [partner, closeAt, inside, closeIn_spell_append, closeIn_zero_close, Option.map_some,
    Option.map_some, Nat.zero_add, Nat.add_comm]

end Block

end RingTape
