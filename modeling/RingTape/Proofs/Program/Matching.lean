/-
# Which marker closes which

The search for a closing marker goes forward once and keeps nothing but a counter. What it
finds can be said without it: the first place behind its start up to which one loop more is
closed than opened. The level of a text, which is how many loops are open at an index if
surplus ones count against it, makes the two comparable, because a character changes it by
one at most: the level cannot come to lie below a value without first falling to just one
below it.

That the searches from different markers never disagree follows from the same fact. While
an outer loop is not closed the level does not fall below that of its body, and an inner
loop lies above it.
-/

import Mathlib.Order.Bounds.Defs
import RingTape.Proofs.Program.Nesting

namespace RingTape.Nesting

/-- How many loops more are opened than closed before an index. -/
def level (text : List Char) (index : Nat) : Int :=
  opens (text.take index) - closes (text.take index)

/-- The characters behind `start`, up to and with the one at `index`. -/
def between (text : List Char) (start index : Nat) : List Char :=
  (text.take (index + 1)).drop (start + 1)

/-- With the character at `index`, one loop more is closed than opened behind `start`. -/
def ClosesOneMore (text : List Char) (start index : Nat) : Prop :=
  start < index ∧ index < text.length ∧
    closes (between text start index) = opens (between text start index) + 1

instance (text : List Char) (start : Nat) : DecidablePred (ClosesOneMore text start) :=
  fun _ => inferInstanceAs (Decidable (_ ∧ _))

variable {text : List Char} {start index close : Nat}

/-! ## Levels -/

theorem level_succ (text : List Char) (index : Nat) :
    level text (index + 1) = level text index +
      (if text[index]? = some loopOpen then 1 else 0) -
        (if text[index]? = some loopClose then 1 else 0) := by
  rw [level, level, opens_take_succ, closes_take_succ]
  push_cast
  split <;> split <;> omega

/-- An opening marker leads one level up. -/
theorem level_succ_of_open (opened : text[index]? = some loopOpen) :
    level text (index + 1) = level text index + 1 := by
  rw [level_succ, opened, if_pos rfl, if_neg (by decide), Int.sub_zero]

/-- A closing marker leads one level down. -/
theorem level_succ_of_close (closed : text[index]? = some loopClose) :
    level text (index + 1) = level text index - 1 := by
  rw [level_succ, closed, if_neg (by decide), if_pos rfl, Int.add_zero]

theorem level_succ_of_other (ne_open : text[index]? ≠ some loopOpen)
    (ne_close : text[index]? ≠ some loopClose) : level text (index + 1) = level text index := by
  rw [level_succ, if_neg ne_open, if_neg ne_close, Int.add_zero, Int.sub_zero]

/-- The level falls at closing markers only, and by one. -/
theorem close_of_level_succ_lt (falls : level text (index + 1) < level text index) :
    text[index]? = some loopClose := by
  rcases marker_cases text[index]? with opened | closed | ⟨ne_open, ne_close⟩
  · rw [level_succ_of_open opened] at falls
    omega
  · exact closed
  · rw [level_succ_of_other ne_open ne_close] at falls
    omega

theorem level_sub_one_le_succ (text : List Char) (index : Nat) :
    level text index - 1 ≤ level text (index + 1) := by
  rw [level_succ]
  split <;> split <;> omega

/-- The markers between two places make the difference of their levels. -/
theorem level_between (le : start ≤ index) :
    level text (index + 1) = level text (start + 1) + opens (between text start index) -
      closes (between text start index) := by
  have parts : text.take (start + 1) ++ between text start index = text.take (index + 1) := by
    have whole := List.take_append_drop (start + 1) (text.take (index + 1))
    rwa [List.take_take, Nat.min_eq_left (by omega)] at whole
  rw [level, level, ← parts, opens_append, closes_append]
  push_cast
  omega

theorem closesOneMore_iff :
    ClosesOneMore text start index ↔ start < index ∧ index < text.length ∧
      level text (index + 1) = level text (start + 1) - 1 := by
  unfold ClosesOneMore
  refine and_congr_right fun before => and_congr_right fun _ => ?_
  rw [level_between before.le]
  omega

/-! ## The search and the levels -/

/-- What is found is the end of the first part behind `start` that is balanced: the level
is nowhere lower there than at its beginning, and the same at its end. -/
theorem partner_eq_some_iff_level :
    partner text start = some close ↔ start < close ∧ text[close]? = some loopClose ∧
      (∀ k, start < k → k ≤ close → level text (start + 1) ≤ level text k) ∧
      level text close = level text (start + 1) := by
  have counted (n : Nat) : level text (start + 1 + n) = level text (start + 1) +
      opens ((text.drop (start + 1)).take n) - closes ((text.drop (start + 1)).take n) := by
    rw [level, level, List.take_add, opens_append, closes_append]
    push_cast
    omega
  rw [partner, closeAt, Option.map_eq_some_iff]
  constructor
  · rintro ⟨n, found, rfl⟩
    obtain ⟨closed, bound, equal⟩ := (closeIn_eq_some_iff 0 _ n).mp found
    rw [List.getElem?_drop, Nat.add_comm (start + 1)] at closed
    refine ⟨by omega, closed, fun k after le => ?_, ?_⟩
    · obtain ⟨m, rfl⟩ := Nat.exists_eq_add_of_le after
      have := bound m (by omega)
      have := counted m
      simp only [Nat.succ_eq_add_one]
      omega
    · rw [Nat.add_comm n, counted n]
      omega
  · rintro ⟨before, closed, bound, equal⟩
    obtain ⟨n, rfl⟩ := Nat.exists_eq_add_of_le (Nat.succ_le_of_lt before)
    refine ⟨n, (closeIn_eq_some_iff 0 _ n).mpr ⟨?_, fun k le => ?_, ?_⟩, Nat.add_comm _ _⟩
    · rwa [List.getElem?_drop]
    · have := bound (start + 1 + k) (by omega) (by omega)
      have := counted k
      omega
    · have := counted n
      simp only [Nat.succ_eq_add_one] at equal
      omega

/-- The search finds the first place with which one loop more is closed than opened. -/
theorem partner_eq_some_iff_isLeast :
    partner text start = some close ↔ IsLeast {k | ClosesOneMore text start k} close := by
  rw [partner_eq_some_iff_level]
  constructor
  · rintro ⟨before, closed, bound, equal⟩
    have inside : close < text.length := (List.getElem?_eq_some_iff.mp closed).1
    refine ⟨closesOneMore_iff.mpr ⟨before, inside, ?_⟩, fun k more => ?_⟩
    · rw [level_succ_of_close closed, equal]
    · obtain ⟨after, -, lower⟩ := closesOneMore_iff.mp more
      by_contra earlier
      have := bound (k + 1) (by omega) (by omega)
      omega
  · rintro ⟨more, least⟩
    obtain ⟨before, inside, lower⟩ := closesOneMore_iff.mp more
    -- A level below would be reached through a place where it is just one lower.
    have bound : ∀ k, start < k → k ≤ close → level text (start + 1) ≤ level text k := by
      intro k after
      induction k, after using Nat.le_induction with
      | base => exact fun _ => le_rfl
      | succ k after ih =>
        intro le
        by_contra below
        have above := ih (by omega)
        have step := level_sub_one_le_succ text k
        have early : ClosesOneMore text start k :=
          closesOneMore_iff.mpr ⟨after, by omega, by omega⟩
        exact absurd (least early) (by omega)
    have at_close := bound close before le_rfl
    have closed : text[close]? = some loopClose := close_of_level_succ_lt (by omega)
    have step := level_succ_of_close closed
    exact ⟨before, closed, bound, by omega⟩

/-- Nothing is found exactly if there is no such place. -/
theorem partner_eq_none_iff :
    partner text start = none ↔ ∀ k, ¬ ClosesOneMore text start k := by
  constructor
  · intro alone k more
    have exists_more : ∃ k, ClosesOneMore text start k := ⟨k, more⟩
    have least : IsLeast {k | ClosesOneMore text start k} (Nat.find exists_more) :=
      ⟨Nat.find_spec exists_more, fun _ => Nat.find_min' exists_more⟩
    rw [partner_eq_some_iff_isLeast.mpr least] at alone
    cases alone
  · intro none_more
    rw [Option.eq_none_iff_forall_not_mem]
    intro close found
    exact none_more close (partner_eq_some_iff_isLeast.mp found).1

/-- Once the search has come past `index`, it goes on with as many inner loops open as were
opened and not closed behind its start. -/
theorem exists_depth (after : start ≤ index)
    (searching : ∀ k ≤ index, ¬ ClosesOneMore text start k) :
    ∃ depth, depth + closes (between text start index) = opens (between text start index) ∧
      partner text start = closeAt text depth (index + 1) := by
  suffices by_level : ∃ depth : Nat, level text (index + 1) = level text (start + 1) + depth ∧
      partner text start = closeAt text depth (index + 1) by
    obtain ⟨depth, height, searched⟩ := by_level
    rw [level_between after] at height
    exact ⟨depth, by omega, searched⟩
  induction index, after using Nat.le_induction with
  | base => exact ⟨0, by simp, rfl⟩
  | succ index after ih =>
    obtain ⟨depth, height, searched⟩ := ih fun k le => searching k (by omega)
    rcases marker_cases text[index + 1]? with opened | closed | ⟨ne_open, ne_close⟩
    · refine ⟨depth + 1, ?_, searched.trans (closeAt_of_open opened)⟩
      rw [level_succ_of_open opened, height]
      push_cast
      omega
    · have lower := level_succ_of_close closed
      cases depth with
      | zero =>
        -- Here the search would have ended.
        have inside : index + 1 < text.length := (List.getElem?_eq_some_iff.mp closed).1
        have more : ClosesOneMore text start (index + 1) :=
          closesOneMore_iff.mpr ⟨by omega, inside, by simpa [height] using lower⟩
        exact absurd more (searching (index + 1) le_rfl)
      | succ depth =>
        refine ⟨depth, ?_, searched.trans (closeAt_succ_of_close closed)⟩
        push_cast at height
        omega
    · refine ⟨depth, ?_, searched.trans (closeAt_of_other ne_open ne_close)⟩
      rw [level_succ_of_other ne_open ne_close, height]

/-! ## Searches from different markers -/

/-- Of two loops, the later one lies behind the earlier or inside of it. -/
theorem partner_lt_or_lt {outer inner : Nat} {outerClose innerClose : Nat}
    (opened : text[inner]? = some loopOpen) (before : outer < inner)
    (outer_found : partner text outer = some outerClose)
    (inner_found : partner text inner = some innerClose) :
    outerClose < inner ∨ innerClose < outerClose := by
  obtain ⟨-, closed, body, at_close⟩ := partner_eq_some_iff_level.mp outer_found
  obtain ⟨-, -, above, -⟩ := partner_eq_some_iff_level.mp inner_found
  have ne : outerClose ≠ inner := by
    rintro rfl
    rw [opened] at closed
    exact loopOpen_ne_loopClose (Option.some.inj closed)
  by_contra crossing
  -- The inner body lies above the outer one, so it does not reach to the outer end.
  have inner_level := level_succ_of_open opened
  have inner_body := body inner before (by omega)
  have outer_end := above outerClose (by omega) (by omega)
  omega

/-- No marker closes two loops. -/
theorem partner_injective {first second : Nat} (first_open : text[first]? = some loopOpen)
    (second_open : text[second]? = some loopOpen) (first_found : partner text first = some close)
    (second_found : partner text second = some close) : first = second := by
  rcases Nat.lt_trichotomy first second with before | equal | after
  · have behind := (partner_eq_some_iff_level.mp second_found).1
    have := partner_lt_or_lt second_open before first_found second_found
    omega
  · exact equal
  · have behind := (partner_eq_some_iff_level.mp first_found).1
    have := partner_lt_or_lt first_open after second_found first_found
    omega

end RingTape.Nesting

namespace RingTape.Program

open Nesting

/-- From wherever it starts, also behind another character than an opening marker, the
search finds the first place with which one loop more is closed than opened, and reports
its start if there is none. It goes no further than the program, however far it may look,
and at every place its counter is what was opened and not closed so far. From opening
markers it finds closing ones with a balanced text between them, a different one for each,
and of two loops one lies inside the other or behind it. -/
theorem findClose_exact (program : Program) :
    (∀ start,
      (∀ close, program.findClose start = .ok close ↔
        IsLeast {k | ClosesOneMore program.toList start k} close) ∧
      (program.findClose start = .error (.unmatchedOpen start) ↔
        ∀ k, ¬ ClosesOneMore program.toList start k) ∧
      (∀ left, program.size - (start + 1) ≤ left →
        program.closeFrom left 0 (start + 1) = program.matchingClose start) ∧
      ∀ index, start ≤ index → index < program.size →
        (∀ k ≤ index, ¬ ClosesOneMore program.toList start k) →
        ∃ depth, depth + closes (between program.toList start index) =
            opens (between program.toList start index) ∧
          program.matchingClose start =
            program.closeFrom (program.size - (index + 1)) depth (index + 1)) ∧
    (∀ start close, program[start]? = some loopOpen → program.findClose start = .ok close →
      program[close]? = some loopClose ∧ start < close ∧
        Balanced ((program.toList.take close).drop (start + 1))) ∧
    (∀ first second close, program[first]? = some loopOpen → program[second]? = some loopOpen →
      program.findClose first = .ok close → program.findClose second = .ok close →
      first = second) ∧
    ∀ i j ci cj, i < j → program[i]? = some loopOpen → program[j]? = some loopOpen →
      program.findClose i = .ok ci → program.findClose j = .ok cj → ci < j ∨ cj < ci := by
  simp only [← Array.getElem?_toList, findClose_eq_ok_iff, findClose_eq_error_iff]
  refine ⟨fun start => ⟨fun close => partner_eq_some_iff_isLeast, partner_eq_none_iff, ?_, ?_⟩,
    ?_, ?_, ?_⟩
  · intro left enough
    rw [matchingClose_eq_partner, closeFrom_eq_closeAt program left 0 (start + 1) (by omega),
      partner]
  · intro index after inside searching
    obtain ⟨depth, counted, searched⟩ := exists_depth after searching
    refine ⟨depth, counted, ?_⟩
    rw [matchingClose_eq_partner, searched, closeFrom_eq_closeAt program _ depth _ (by omega)]
  · intro start close opened found
    obtain ⟨-, closed, before, balanced⟩ := (partner_eq_some_iff opened).mp found
    exact ⟨closed, before, balanced⟩
  · intro first second close first_open second_open
    exact partner_injective first_open second_open
  · intro i j ci cj before _ opened
    exact partner_lt_or_lt opened before

end RingTape.Program
