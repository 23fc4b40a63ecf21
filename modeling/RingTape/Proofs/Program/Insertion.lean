/-
# Loops around an insertion

Characters can be put into a text anywhere, as long as none of them is a loop marker,
without changing which markers belong together. All that changes is where a marker stands:
the positions from the insertion on are moved by its length.
-/

import RingTape.Proofs.Program.Nesting

namespace RingTape.Nesting

/-- Where a position of a text is found when `count` characters are put in at `start`. -/
def shiftFrom (start count position : Nat) : Nat :=
  if position < start then position else position + count

theorem shiftFrom_of_lt {start position : Nat} (before : position < start) (count : Nat) :
    shiftFrom start count position = position := if_pos before

theorem shiftFrom_of_le {start position : Nat} (behind : start ≤ position) (count : Nat) :
    shiftFrom start count position = position + count := if_neg (Nat.not_lt.mpr behind)

/-- A step to the right on either side keeps the distance from the insertion. -/
theorem shiftFrom_add (start count position distance : Nat) :
    shiftFrom (start + distance) count (position + distance) =
      shiftFrom start count position + distance := by
  unfold shiftFrom
  split <;> split <;> omega

/-- One place further is the place of the next position, unless the insertion comes
between the two. -/
theorem shiftFrom_succ (start count position : Nat) :
    shiftFrom start count position + 1 = shiftFrom start count (position + 1) ∨
      position + 1 = start ∧ shiftFrom start count position + 1 = start := by
  unfold shiftFrom
  split <;> split <;> omega

variable {front middle back : List Char} {depth : Nat}

/-- The characters around an insertion stay the same. -/
theorem getElem?_shiftFrom (front middle back : List Char) (position : Nat) :
    (front ++ middle ++ back)[shiftFrom front.length middle.length position]? =
      (front ++ back)[position]? := by
  rw [List.append_assoc]
  by_cases before : position < front.length
  · rw [shiftFrom_of_lt before, List.getElem?_append_left before, List.getElem?_append_left before]
  · have behind : front.length ≤ position := Nat.not_lt.mp before
    rw [shiftFrom_of_le behind, List.getElem?_append_right (by omega),
      List.getElem?_append_right (by omega), List.getElem?_append_right behind]
    congr 1
    omega

/-- The characters behind an insertion are those behind the place where it was made. -/
theorem drop_shiftFrom (front middle back : List Char) {position : Nat}
    (behind : front.length ≤ position) :
    (front ++ middle ++ back).drop (position + middle.length) = (front ++ back).drop position := by
  have passed : (front ++ middle).drop (position + middle.length) = [] := by
    apply List.drop_of_length_le
    rw [List.length_append]
    omega
  rw [List.drop_append, passed, List.drop_append, List.drop_of_length_le behind,
    List.length_append]
  congr 2
  omega

variable (plain : ∀ c ∈ middle, c ≠ loopOpen ∧ c ≠ loopClose)

include plain

/-- A search passes over characters that are no markers. -/
theorem closeIn_append_of_plain (depth : Nat) (back : List Char) :
    closeIn depth (middle ++ back) = (closeIn depth back).map (· + middle.length) := by
  induction middle with
  | nil => exact (Option.map_id_apply).symm
  | cons c rest ih =>
    obtain ⟨ne_open, ne_close⟩ := plain c List.mem_cons_self
    have later := ih fun other member => plain other (List.mem_cons_of_mem c member)
    rw [List.cons_append, closeIn_other depth _ ne_open ne_close, later, Option.map_map]
    rfl

/-- A closing marker is found around an insertion as without it. -/
theorem closeIn_insert (depth : Nat) (front back : List Char) :
    closeIn depth (front ++ middle ++ back) =
      (closeIn depth (front ++ back)).map (shiftFrom front.length middle.length) := by
  induction front generalizing depth with
  | nil =>
    rw [List.nil_append, closeIn_append_of_plain plain]
    rfl
  | cons c rest ih =>
    have later (found : Option Nat) :
        (found.map (shiftFrom rest.length middle.length)).map (· + 1) =
          (found.map (· + 1)).map (shiftFrom (c :: rest).length middle.length) := by
      rw [Option.map_map, Option.map_map]
      congr 1
      funext position
      exact (shiftFrom_add rest.length middle.length position 1).symm
    rw [List.cons_append, List.cons_append, List.cons_append]
    by_cases opened : c = loopOpen
    · subst opened
      rw [closeIn_open, closeIn_open, ih, later]
    · by_cases closed : c = loopClose
      · subst closed
        cases depth with
        | zero => rfl
        | succ depth => rw [closeIn_succ_close, closeIn_succ_close, ih, later]
      · rw [closeIn_other depth _ opened closed, closeIn_other depth _ opened closed, ih, later]

/-- Markers have the same partners around an insertion as without it. -/
theorem partner_insert (front back : List Char) (position : Nat) :
    partner (front ++ middle ++ back) (shiftFrom front.length middle.length position) =
      (partner (front ++ back) position).map (shiftFrom front.length middle.length) := by
  rw [partner, partner, closeAt, closeAt, Option.map_map]
  by_cases before : position < front.length
  · have inside : position + 1 ≤ front.length := before
    have left : front.length = (front.drop (position + 1)).length + (position + 1) := by
      rw [List.length_drop]
      omega
    rw [shiftFrom_of_lt before, List.append_assoc, List.drop_append_of_le_length inside,
      List.drop_append_of_le_length inside, ← List.append_assoc, closeIn_insert plain,
      Option.map_map]
    congr 1
    funext found
    show shiftFrom _ _ found + (position + 1) = shiftFrom _ _ (found + (position + 1))
    rw [left, shiftFrom_add]
  · have behind : front.length ≤ position := Nat.not_lt.mp before
    rw [shiftFrom_of_le behind, Nat.add_right_comm, drop_shiftFrom _ _ _ (Nat.le_succ_of_le behind)]
    congr 1
    funext found
    show found + (position + 1 + middle.length) = shiftFrom _ _ (found + (position + 1))
    rw [shiftFrom_of_le (by omega), ← Nat.add_assoc]

omit plain

/-- A loop around an insertion reaches further, and one behind it begins later. -/
example :
    partner "[+][-]".toList 3 = some 5 ∧ partner "[+><][-]".toList 5 = some 7 ∧
      partner "[+><][-]".toList 0 = some 4 := by decide

end RingTape.Nesting
