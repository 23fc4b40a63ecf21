/-
# Loops in a filtered text

A text can be read without some of its characters. As long as the loop markers stay,
nothing about loops is lost: a marker has a partner in the whole text exactly if it has
one among the characters that are kept, and that is the same marker. Positions are
translated both ways, by counting the kept characters before a position and by looking
for the kept character with a number.
-/

import RingTape.Proofs.Program.Nesting

namespace RingTape.Nesting

variable {keep : Char → Bool} {text : List Char} {index : Nat} {c : Char}

/-- A kept character is counted behind its position. -/
theorem countPBefore_succ_of_kept (read : text[index]? = some c) (kept : keep c = true) :
    text.countPBefore keep (index + 1) = text.countPBefore keep index + 1 := by
  rw [List.countPBefore_eq_countP_take, List.countPBefore_eq_countP_take, List.take_add_one,
    read, List.countP_append]
  simp [kept]

/-- A character that is dropped is counted nowhere. -/
theorem countPBefore_succ_of_dropped (read : text[index]? = some c) (dropped : keep c = false) :
    text.countPBefore keep (index + 1) = text.countPBefore keep index := by
  rw [List.countPBefore_eq_countP_take, List.countPBefore_eq_countP_take, List.take_add_one,
    read, List.countP_append]
  simp [dropped]

/-- The rest of what is kept is what is kept of the rest. -/
theorem drop_filter (keep : Char → Bool) (text : List Char) (index : Nat) :
    (text.filter keep).drop (text.countPBefore keep index) = (text.drop index).filter keep := by
  have split : text.filter keep =
      (text.take index).filter keep ++ (text.drop index).filter keep := by
    rw [← List.filter_append, List.take_append_drop]
  rw [split, List.countPBefore_eq_countP_take, List.countP_eq_length_filter, List.drop_left]

/-- What is kept of a text has a character at the count of a position exactly if some
character from that position on is kept, and the first of these. -/
theorem getElem?_filter_countPBefore (keep : Char → Bool) (text : List Char) (index : Nat) :
    (text.filter keep)[text.countPBefore keep index]? = ((text.drop index).filter keep).head? := by
  rw [← drop_filter, List.head?_drop]

/-- A kept character stands among the kept ones where the count says. -/
theorem getElem?_filter_of_kept (read : text[index]? = some c) (kept : keep c = true) :
    (text.filter keep)[text.countPBefore keep index]? = some c := by
  rw [getElem?_filter_countPBefore, drop_eq_cons read, List.filter_cons_of_pos kept,
    List.head?_cons]

/-- Behind the text nothing is kept. -/
theorem getElem?_filter_of_none (ended : text[index]? = none) :
    (text.filter keep)[text.countPBefore keep index]? = none := by
  rw [getElem?_filter_countPBefore, List.drop_eq_nil_of_le (List.getElem?_eq_none_iff.mp ended)]
  rfl

/-- A kept character is the one with the number that is counted before it. -/
theorem findIdxNth_of_kept (read : text[index]? = some c) (kept : keep c = true) :
    text.findIdxNth keep (text.countPBefore keep index) = index := by
  obtain ⟨inside, rfl⟩ := List.getElem?_eq_some_iff.mp read
  exact List.findIdxNth_countPBefore_of_lt_length_of_pos kept

/-- As many characters are kept before the kept one with a number. -/
theorem countPBefore_of_read {number : Nat} (read : (text.filter keep)[number]? = some c) :
    text.countPBefore keep (text.findIdxNth keep number) = number := by
  obtain ⟨inside, -⟩ := List.getElem?_eq_some_iff.mp read
  rw [← List.countP_eq_length_filter] at inside
  exact List.countPBefore_findIdxNth_of_lt_countP inside

/-- A kept character with a number is the one at its position. -/
theorem getElem?_findIdxNth {number : Nat} (read : (text.filter keep)[number]? = some c) :
    text[text.findIdxNth keep number]? = some c := by
  obtain ⟨inside, -⟩ := List.getElem?_eq_some_iff.mp read
  rw [← List.countP_eq_length_filter, ← List.findIdxNth_lt_length_iff] at inside
  have here : text[text.findIdxNth keep number]? = some text[text.findIdxNth keep number] :=
    List.getElem?_eq_getElem inside
  have kept : keep text[text.findIdxNth keep number] = true := List.pos_findIdxNth_getElem
  rw [here, ← getElem?_filter_of_kept here kept, countPBefore_of_read read, read]

/-- Numbers that go on from a position are found from there on. -/
theorem findIdxNth_countPBefore_add (keep : Char → Bool) (text : List Char) (index number : Nat)
    (inside : index ≤ text.length) :
    text.findIdxNth keep (number + text.countPBefore keep index) =
      (text.drop index).findIdxNth keep number + index := by
  induction text generalizing index with
  | nil =>
    obtain rfl := Nat.le_zero.mp inside
    rfl
  | cons c rest ih =>
    cases index with
    | zero => rw [List.countPBefore_cons_zero]; rfl
    | succ index =>
      have later := ih index (Nat.le_of_succ_le_succ inside)
      rw [List.countPBefore_cons_succ, List.drop_succ_cons, ← Nat.add_assoc, ← later]
      cases kept : keep c with
      | true => rw [if_pos rfl, ← Nat.add_assoc, List.findIdxNth_cons_succ_of_pos kept]
      | false => rw [if_neg (by decide), List.findIdxNth_cons_of_neg kept]

/-! ## The search for a partner -/

section

variable (opens_kept : keep loopOpen = true) (closes_kept : keep loopClose = true)

include opens_kept closes_kept

/-- A closing marker is found among the kept characters as in the whole text. -/
theorem closeIn_eq_map_closeIn_filter (depth : Nat) (text : List Char) :
    closeIn depth text = (closeIn depth (text.filter keep)).map (text.findIdxNth keep) := by
  induction text generalizing depth with
  | nil => rfl
  | cons c rest ih =>
    -- Behind a kept character the numbers of the others are one higher.
    have later (found : Option Nat) (kept : keep c = true) :
        (found.map (rest.findIdxNth keep)).map (· + 1) =
          (found.map (· + 1)).map ((c :: rest).findIdxNth keep) := by
      rw [Option.map_map, Option.map_map]
      congr 1
      funext number
      exact (List.findIdxNth_cons_succ_of_pos kept).symm
    by_cases opened : c = loopOpen
    · subst opened
      rw [List.filter_cons_of_pos opens_kept, closeIn_open, closeIn_open, ih, later _ opens_kept]
    · by_cases closed : c = loopClose
      · subst closed
        rw [List.filter_cons_of_pos closes_kept]
        cases depth with
        | zero =>
          rw [closeIn_zero_close, closeIn_zero_close, Option.map_some,
            List.findIdxNth_cons_zero_of_pos closes_kept]
        | succ depth =>
          rw [closeIn_succ_close, closeIn_succ_close, ih, later _ closes_kept]
      · rw [closeIn_other depth rest opened closed, ih]
        cases kept : keep c with
        | true =>
          rw [List.filter_cons_of_pos kept, closeIn_other depth _ opened closed, later _ kept]
        | false =>
          rw [List.filter_cons_of_neg (by simp [kept]), Option.map_map]
          congr 1
          funext number
          exact (List.findIdxNth_cons_of_neg kept).symm

/-- A marker has its partner among the kept characters as in the whole text. -/
theorem partner_eq_map_partner_filter (opened : text[index]? = some loopOpen) :
    partner text index =
      (partner (text.filter keep) (text.countPBefore keep index)).map (text.findIdxNth keep) := by
  have inside : index + 1 ≤ text.length := (List.getElem?_eq_some_iff.mp opened).1
  rw [partner, partner, closeAt, closeAt, ← countPBefore_succ_of_kept opened opens_kept,
    drop_filter, closeIn_eq_map_closeIn_filter opens_kept closes_kept, Option.map_map,
    Option.map_map]
  congr 1
  funext number
  exact (findIdxNth_countPBefore_add keep text (index + 1) number inside).symm

end

/-- Among the kept characters of a text with a remark the loop is the same. -/
example :
    let keep := isInstruction []
    let text := "[clear - it]".toList
    partner text 0 = some 11 ∧ partner (text.filter keep) 0 = some 2 ∧
      text.findIdxNth keep 2 = 11 := by decide

end RingTape.Nesting
