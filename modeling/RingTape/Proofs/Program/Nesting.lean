/-
# The nesting of loops in a text

Which marker belongs to which is a matter of the text alone. A text is balanced
when none of its first parts closes more loops than it opens and all of it closes
as many as it opens; two markers are partners when a balanced text lies between
them. The search of a program for a closing marker finds exactly the partner.

The markers that are open at an index can be read off in two ways: as those whose
partner does not come before the index, and by a scan that puts every opening
marker on a stack and takes one off at every closing marker. The two agree, which
is what ties the stack of a run to the text.
-/

import Mathlib.Data.List.Sort
import RingTape.Execution.Program

namespace RingTape.Nesting

/-- How many loops a text opens. -/
def opens (text : List Char) : Nat := text.count loopOpen

/-- How many loops a text closes. -/
def closes (text : List Char) : Nat := text.count loopClose

/-- No first part of the text, up to `index` characters long, closes more loops
than it opens. -/
def GuardedTo (text : List Char) (index : Nat) : Prop :=
  ∀ n ≤ index, closes (text.take n) ≤ opens (text.take n)

/-- Every loop that is opened is closed and the other way round. -/
def Balanced (text : List Char) : Prop :=
  GuardedTo text text.length ∧ opens text = closes text

/-- The markers at two positions of a text belong together. -/
def Partners (text : List Char) (start close : Nat) : Prop :=
  text[start]? = some loopOpen ∧ text[close]? = some loopClose ∧ start < close ∧
    Balanced ((text.take close).drop (start + 1))

instance (text : List Char) (index : Nat) : Decidable (GuardedTo text index) :=
  inferInstanceAs (Decidable (∀ n ≤ index, _))

instance (text : List Char) : Decidable (Balanced text) :=
  inferInstanceAs (Decidable (_ ∧ _))

instance (text : List Char) (start close : Nat) : Decidable (Partners text start close) :=
  inferInstanceAs (Decidable (_ ∧ _))

/-- The positions before `index` of the opening markers whose partner does not come
before `index`, in increasing order. -/
def unclosed (text : List Char) (index : Nat) : List Nat :=
  (List.range index).filter fun start =>
    text[start]? = some loopOpen ∧ ∀ close < index, ¬ Partners text start close

/-! ## Counting markers -/

@[simp] theorem opens_nil : opens [] = 0 := rfl

@[simp] theorem closes_nil : closes [] = 0 := rfl

theorem loopOpen_ne_loopClose : loopOpen ≠ loopClose := by decide

@[simp] theorem opens_cons (c : Char) (text : List Char) :
    opens (c :: text) = opens text + if c = loopOpen then 1 else 0 := by
  simp [opens, List.count_cons]

@[simp] theorem closes_cons (c : Char) (text : List Char) :
    closes (c :: text) = closes text + if c = loopClose then 1 else 0 := by
  simp [closes, List.count_cons]

@[simp] theorem opens_append (first second : List Char) :
    opens (first ++ second) = opens first + opens second := List.count_append

@[simp] theorem closes_append (first second : List Char) :
    closes (first ++ second) = closes first + closes second := List.count_append

/-- Taking one character more counts that character, if there is one. -/
theorem opens_take_succ (text : List Char) (index : Nat) :
    opens (text.take (index + 1)) =
      opens (text.take index) + if text[index]? = some loopOpen then 1 else 0 := by
  rw [List.take_add_one, opens_append]
  cases text[index]? <;> simp

theorem closes_take_succ (text : List Char) (index : Nat) :
    closes (text.take (index + 1)) =
      closes (text.take index) + if text[index]? = some loopClose then 1 else 0 := by
  rw [List.take_add_one, closes_append]
  cases text[index]? <;> simp

theorem GuardedTo.mono {text : List Char} {first second : Nat} (guarded : GuardedTo text second)
    (le : first ≤ second) : GuardedTo text first :=
  fun n bound => guarded n (bound.trans le)

/-- A text that is guarded up to its length is guarded everywhere. -/
theorem guardedTo_of_length {text : List Char} (guarded : GuardedTo text text.length)
    (index : Nat) : GuardedTo text index := by
  intro n _
  rcases Nat.le_total n text.length with short | long
  · exact guarded n short
  · simpa [List.take_of_length_le long] using guarded text.length le_rfl

/-! ## The search for a partner -/

/-- How far into a text the first marker lies that closes one loop more than
`depth` and the loops opened before it. -/
def closeIn : Nat → List Char → Option Nat
  | _, [] => none
  | depth, c :: rest =>
    if c = loopOpen then (closeIn (depth + 1) rest).map (· + 1)
    else if c = loopClose then
      match depth with
      | 0 => some 0
      | depth + 1 => (closeIn depth rest).map (· + 1)
    else (closeIn depth rest).map (· + 1)

theorem closeIn_open (depth : Nat) (rest : List Char) :
    closeIn depth (loopOpen :: rest) = (closeIn (depth + 1) rest).map (· + 1) := by
  simp only [closeIn, if_pos]

theorem closeIn_zero_close (rest : List Char) : closeIn 0 (loopClose :: rest) = some 0 := by
  simp only [closeIn, if_neg loopOpen_ne_loopClose.symm, if_pos]

theorem closeIn_succ_close (depth : Nat) (rest : List Char) :
    closeIn (depth + 1) (loopClose :: rest) = (closeIn depth rest).map (· + 1) := by
  simp only [closeIn, if_neg loopOpen_ne_loopClose.symm, if_pos]

theorem closeIn_other {c : Char} (depth : Nat) (rest : List Char) (ne_open : c ≠ loopOpen)
    (ne_close : c ≠ loopClose) : closeIn depth (c :: rest) = (closeIn depth rest).map (· + 1) := by
  simp only [closeIn, if_neg ne_open, if_neg ne_close]

/-- The same as a position of the text, for a search that begins at `index`. -/
def closeAt (text : List Char) (depth index : Nat) : Option Nat :=
  (closeIn depth (text.drop index)).map (· + index)

theorem le_of_closeAt {text : List Char} {depth index close : Nat}
    (found : closeAt text depth index = some close) : index ≤ close := by
  obtain ⟨n, -, rfl⟩ := Option.map_eq_some_iff.mp found
  exact Nat.le_add_left index n

theorem drop_eq_cons {text : List Char} {index : Nat} {c : Char} (read : text[index]? = some c) :
    text.drop index = c :: text.drop (index + 1) := by
  obtain ⟨inside, rfl⟩ := List.getElem?_eq_some_iff.mp read
  exact List.drop_eq_getElem_cons inside

theorem map_add_one_add (found : Option Nat) (index : Nat) :
    (found.map (· + 1)).map (· + index) = found.map (· + (index + 1)) := by
  rw [Option.map_map]
  congr 1
  funext n
  exact Nat.add_right_comm n 1 index

theorem closeAt_of_open {text : List Char} {depth index : Nat}
    (read : text[index]? = some loopOpen) :
    closeAt text depth index = closeAt text (depth + 1) (index + 1) := by
  rw [closeAt, drop_eq_cons read, closeIn_open, map_add_one_add, closeAt]

theorem closeAt_zero_of_close {text : List Char} {index : Nat}
    (read : text[index]? = some loopClose) : closeAt text 0 index = some index := by
  rw [closeAt, drop_eq_cons read, closeIn_zero_close, Option.map_some, Nat.zero_add]

theorem closeAt_succ_of_close {text : List Char} {depth index : Nat}
    (read : text[index]? = some loopClose) :
    closeAt text (depth + 1) index = closeAt text depth (index + 1) := by
  rw [closeAt, drop_eq_cons read, closeIn_succ_close, map_add_one_add, closeAt]

theorem closeAt_of_other {text : List Char} {depth index : Nat}
    (ne_open : text[index]? ≠ some loopOpen) (ne_close : text[index]? ≠ some loopClose) :
    closeAt text depth index = closeAt text depth (index + 1) := by
  cases read : text[index]? with
  | none =>
    have past := List.getElem?_eq_none_iff.mp read
    rw [closeAt, closeAt, List.drop_eq_nil_of_le past, List.drop_eq_nil_of_le (by omega)]
    rfl
  | some c =>
    rw [read, ne_eq, Option.some_inj] at ne_open ne_close
    rw [closeAt, drop_eq_cons read, closeIn_other depth _ ne_open ne_close, map_add_one_add,
      closeAt]

/-- The search through a program is the search through its text, if it may look at all
that is left of the program. -/
theorem closeFrom_eq_closeAt (program : Program) (left depth index : Nat)
    (enough : program.size ≤ left + index) :
    program.closeFrom left depth index = closeAt program.toList depth index := by
  induction left generalizing depth index with
  | zero =>
    rw [closeAt, List.drop_eq_nil_of_le (by simpa using enough)]
    rfl
  | succ left ih =>
    have later (depth : Nat) := ih depth (index + 1) (by omega)
    cases found : program[index]? with
    | none =>
      simp only [Program.closeFrom, found]
      rw [closeAt, List.drop_eq_nil_of_le (by simpa using found)]
      rfl
    | some c =>
      have read : program.toList[index]? = some c := by rwa [Array.getElem?_toList]
      simp only [Program.closeFrom, found]
      split
      · next opened => rw [closeAt_of_open (opened ▸ read), later]
      · next ne_open =>
        split
        · next closed =>
          cases depth with
          | zero => rw [closeAt_zero_of_close (closed ▸ read)]
          | succ depth => exact (later depth).trans (closeAt_succ_of_close (closed ▸ read)).symm
        · next ne_close =>
          rw [closeAt_of_other (by simpa [read] using ne_open) (by simpa [read] using ne_close),
            later]

/-- The search counts: it stops at the first closing marker for which nothing is
left open. -/
theorem closeIn_eq_some_iff (depth : Nat) (text : List Char) (n : Nat) :
    closeIn depth text = some n ↔
      text[n]? = some loopClose ∧
        (∀ k ≤ n, closes (text.take k) ≤ opens (text.take k) + depth) ∧
        closes (text.take n) = opens (text.take n) + depth := by
  induction text generalizing depth n with
  | nil => simp [closeIn]
  | cons c rest ih =>
    cases n with
    | zero =>
      simp only [closeIn]
      split
      · next opened => simp [opened, loopOpen_ne_loopClose]
      · split
        · next closed => cases depth <;> simp [closed]
        · next other => simp [other]
    | succ n =>
      have first_or_later (p : Nat → Prop) : (∀ k ≤ n + 1, p k) ↔ p 0 ∧ ∀ k ≤ n, p (k + 1) := by
        simp only [← Nat.lt_succ_iff]
        exact Nat.forall_lt_succ_left
      have moved (depth : Nat) :
          (closeIn depth rest).map (· + 1) = some (n + 1) ↔ closeIn depth rest = some n := by
        simp
      rw [first_or_later]
      simp only [closeIn, List.getElem?_cons_succ, List.take_succ_cons, List.take_zero,
        opens_nil, closes_nil, opens_cons, closes_cons]
      by_cases opened : c = loopOpen
      · subst opened
        rw [if_pos rfl, moved, ih]
        simp only [if_pos, if_neg loopOpen_ne_loopClose, Nat.add_assoc, Nat.add_comm depth 1,
          Nat.add_zero, Nat.zero_le, true_and]
      · by_cases closed : c = loopClose
        · subst closed
          rw [if_neg opened, if_pos rfl]
          cases depth with
          | zero =>
            simp only [if_pos, if_neg opened]
            constructor
            · intro impossible
              cases impossible
            · rintro ⟨-, ⟨-, bound⟩, -⟩
              simpa using bound 0 (Nat.zero_le _)
          | succ depth =>
            rw [moved, ih]
            simp only [if_pos, if_neg opened, Nat.add_zero, ← Nat.add_assoc,
              Nat.add_le_add_iff_right, Nat.add_right_cancel_iff, Nat.zero_le, true_and]
        · rw [if_neg opened, if_neg closed, moved, ih]
          simp only [if_neg opened, if_neg closed, Nat.add_zero, Nat.zero_le, true_and]

/-- The marker that closes a loop opened before the text is the one after the first
balanced part. -/
theorem closeIn_zero_eq_some_iff (text : List Char) (n : Nat) :
    closeIn 0 text = some n ↔ text[n]? = some loopClose ∧ Balanced (text.take n) := by
  rw [closeIn_eq_some_iff]
  apply and_congr_right
  intro read
  obtain ⟨inside, -⟩ := List.getElem?_eq_some_iff.mp read
  have length_take : (text.take n).length = n := by
    rw [List.length_take]
    omega
  rw [Balanced, GuardedTo, length_take]
  have bounds (k : Nat) (le : k ≤ n) :
      closes (text.take k) ≤ opens (text.take k) + 0 ↔
        closes ((text.take n).take k) ≤ opens ((text.take n).take k) := by
    rw [List.take_take, Nat.min_eq_left le, Nat.add_zero]
  exact and_congr (forall₂_congr bounds) eq_comm

/-- Where the loop opened at `start` is closed. -/
def partner (text : List Char) (start : Nat) : Option Nat := closeAt text 0 (start + 1)

/-- The search of a program for a closing marker finds the partner in its text. -/
theorem matchingClose_eq_partner (program : Program) (start : Nat) :
    program.matchingClose start = partner program.toList start :=
  closeFrom_eq_closeAt program _ 0 (start + 1) (by omega)

theorem findClose_eq_ok_iff {program : Program} {start close : Nat} :
    program.findClose start = .ok close ↔ partner program.toList start = some close := by
  rw [Program.findClose, matchingClose_eq_partner]
  cases partner program.toList start <;> simp

/-- The error is that of a loop that nothing closes. -/
theorem findClose_eq_error_iff {program : Program} {start : Nat} :
    program.findClose start = .error (.unmatchedOpen start) ↔
      partner program.toList start = none := by
  rw [Program.findClose, matchingClose_eq_partner]
  cases partner program.toList start <;> simp

/-- What is found for the position of an opening marker is the position of its
partner, and a partner is found. -/
theorem partner_eq_some_iff {text : List Char} {start close : Nat}
    (opened : text[start]? = some loopOpen) :
    partner text start = some close ↔ Partners text start close := by
  rw [partner, closeAt, Option.map_eq_some_iff, Partners]
  constructor
  · rintro ⟨n, found, rfl⟩
    obtain ⟨closed, balanced⟩ := (closeIn_zero_eq_some_iff _ n).mp found
    rw [List.getElem?_drop] at closed
    refine ⟨opened, Nat.add_comm n _ ▸ closed, by omega, ?_⟩
    rwa [List.drop_take, Nat.add_sub_cancel]
  · rintro ⟨-, closed, before, balanced⟩
    refine ⟨close - (start + 1), (closeIn_zero_eq_some_iff _ _).mpr ⟨?_, ?_⟩, by omega⟩
    · rwa [List.getElem?_drop, Nat.add_sub_cancel' before]
    · rwa [List.drop_take] at balanced

/-! ## The scan with a stack -/

/-- The opening markers before `index` that wait for their partners there, the
innermost first; `none` when a closing marker before `index` closes nothing. -/
def pending (text : List Char) : Nat → Option (List Nat)
  | 0 => some []
  | index + 1 =>
    if text[index]? = some loopOpen then (pending text index).map (index :: ·)
    else if text[index]? = some loopClose then (pending text index).bind List.tail?
    else pending text index

theorem pending_succ_of_open {text : List Char} {index : Nat} {stack : List Nat}
    (read : text[index]? = some loopOpen) (waiting : pending text index = some stack) :
    pending text (index + 1) = some (index :: stack) := by
  rw [pending, if_pos read, waiting]
  rfl

theorem pending_succ_of_close {text : List Char} {index start : Nat} {stack : List Nat}
    (read : text[index]? = some loopClose) (waiting : pending text index = some (start :: stack)) :
    pending text (index + 1) = some stack := by
  rw [pending, read, if_neg (by decide), if_pos rfl, waiting]
  rfl

theorem pending_succ_of_other {text : List Char} {index : Nat}
    (ne_open : text[index]? ≠ some loopOpen) (ne_close : text[index]? ≠ some loopClose) :
    pending text (index + 1) = pending text index := by
  rw [pending, if_neg ne_open, if_neg ne_close]

/-- A place in a text holds an opening marker, a closing one, or neither. -/
theorem marker_cases (read : Option Char) :
    read = some loopOpen ∨ read = some loopClose ∨
      (read ≠ some loopOpen ∧ read ≠ some loopClose) := by
  by_cases opened : read = some loopOpen
  · exact .inl opened
  · by_cases closed : read = some loopClose
    · exact .inr (.inl closed)
    · exact .inr (.inr ⟨opened, closed⟩)

/-- The three ways in which the scan gets past a character. -/
theorem pending_succ_cases {text : List Char} {index : Nat} {stack : List Nat}
    (waiting : pending text (index + 1) = some stack) :
    (text[index]? = some loopOpen ∧
      ∃ outer, pending text index = some outer ∧ stack = index :: outer) ∨
    (text[index]? = some loopClose ∧ ∃ start, pending text index = some (start :: stack)) ∨
    (text[index]? ≠ some loopOpen ∧ text[index]? ≠ some loopClose ∧
      pending text index = some stack) := by
  rw [pending] at waiting
  split at waiting
  · next opened =>
    obtain ⟨outer, before, rfl⟩ := Option.map_eq_some_iff.mp waiting
    exact .inl ⟨opened, outer, before, rfl⟩
  · next ne_open =>
    split at waiting
    · next closed =>
      obtain ⟨whole, before, tail⟩ := Option.bind_eq_some_iff.mp waiting
      cases whole with
      | nil => cases tail
      | cons start rest =>
        cases tail
        exact .inr (.inl ⟨closed, start, before⟩)
    · next ne_close => exact .inr (.inr ⟨ne_open, ne_close, waiting⟩)

/-- Below the innermost open marker lies what was open when it was reached. -/
theorem pending_cons {text : List Char} {index start : Nat} {outer : List Nat}
    (waiting : pending text index = some (start :: outer)) :
    start < index ∧ text[start]? = some loopOpen ∧ pending text start = some outer := by
  induction index using Nat.strongRecOn generalizing start outer with
  | ind index ih =>
    cases index with
    | zero => cases waiting
    | succ index =>
      rcases pending_succ_cases waiting with ⟨opened, below, before, equal⟩ |
        ⟨-, inner, before⟩ | ⟨-, -, before⟩
      · obtain ⟨rfl, rfl⟩ := List.cons.inj equal
        exact ⟨Nat.lt_succ_self _, opened, before⟩
      · -- The marker just closed had `start` right below it.
        obtain ⟨inner_lt, -, below⟩ := ih index (Nat.lt_succ_self _) before
        obtain ⟨lt, opened, rest⟩ := ih inner (by omega) below
        exact ⟨by omega, opened, rest⟩
      · obtain ⟨lt, opened, rest⟩ := ih index (Nat.lt_succ_self _) before
        exact ⟨by omega, opened, rest⟩

/-- The same for any marker on the stack. -/
theorem pending_append {text : List Char} {index start : Nat} {inner outer : List Nat}
    (waiting : pending text index = some (inner ++ start :: outer)) :
    start < index ∧ text[start]? = some loopOpen ∧ pending text start = some outer := by
  induction inner generalizing index with
  | nil => exact pending_cons waiting
  | cons top inner ih =>
    obtain ⟨top_lt, -, below⟩ := pending_cons waiting
    obtain ⟨lt, opened, rest⟩ := ih below
    exact ⟨lt.trans top_lt, opened, rest⟩

/-- For an open marker the search for its partner can as well begin where the scan
stands, at the depth of the markers above it. -/
theorem partner_of_pending {text : List Char} {index start : Nat} {inner outer : List Nat}
    (waiting : pending text index = some (inner ++ start :: outer)) :
    partner text start = closeAt text inner.length index := by
  induction index generalizing inner with
  | zero => simp [pending] at waiting
  | succ index ih =>
    rcases pending_succ_cases waiting with ⟨opened, below, before, equal⟩ |
      ⟨closed, top, before⟩ | ⟨ne_open, ne_close, before⟩
    · cases inner with
      | nil =>
        obtain ⟨rfl, -⟩ := List.cons.inj equal
        rfl
      | cons top inner =>
        obtain ⟨-, rfl⟩ := List.cons.inj equal
        rw [ih before, closeAt_of_open opened, List.length_cons]
    · have deeper : pending text index = some ((top :: inner) ++ start :: outer) := before
      rw [ih deeper, List.length_cons, closeAt_succ_of_close closed]
    · rw [ih before, closeAt_of_other ne_open ne_close]

/-- A closing marker is the partner of the innermost open one. -/
theorem partner_of_top {text : List Char} {index start : Nat} {outer : List Nat}
    (waiting : pending text index = some (start :: outer))
    (closed : text[index]? = some loopClose) : partner text start = some index := by
  have on_top : pending text index = some ([] ++ start :: outer) := waiting
  rw [partner_of_pending on_top, List.length_nil, closeAt_zero_of_close closed]

/-- An open marker has no partner behind the scan. -/
theorem le_of_partner {text : List Char} {index start close : Nat} {stack : List Nat}
    (waiting : pending text index = some stack) (member : start ∈ stack)
    (found : partner text start = some close) : index ≤ close := by
  obtain ⟨inner, outer, rfl⟩ := List.append_of_mem member
  rw [partner_of_pending waiting] at found
  exact le_of_closeAt found

/-- Once as many loops are closed as were open above some level, that level is left. -/
theorem pending_after_closeAt {text : List Char} {depth index distance : Nat}
    {inner outer : List Nat} (waiting : pending text index = some (inner ++ outer))
    (length : inner.length = depth + 1)
    (found : closeAt text depth index = some (index + distance)) :
    pending text (index + distance + 1) = some outer := by
  induction distance generalizing depth index inner with
  | zero =>
    -- A search that went on from here would have passed the index.
    have here {depth : Nat} (later : closeAt text depth (index + 1) = some (index + 0)) : False :=
      absurd (le_of_closeAt later) (Nat.not_succ_le_self index)
    rcases marker_cases text[index]? with opened | closed | ⟨ne_open, ne_close⟩
    · rw [closeAt_of_open opened] at found
      exact (here found).elim
    · cases depth with
      | zero =>
        obtain ⟨top, rfl⟩ := List.length_eq_one_iff.mp length
        exact pending_succ_of_close closed waiting
      | succ depth =>
        rw [closeAt_succ_of_close closed] at found
        exact (here found).elim
    · rw [closeAt_of_other ne_open ne_close] at found
      exact (here found).elim
  | succ distance ih =>
    rw [show index + (distance + 1) = index + 1 + distance by omega] at found ⊢
    rcases marker_cases text[index]? with opened | closed | ⟨ne_open, ne_close⟩
    · rw [closeAt_of_open opened] at found
      have after : pending text (index + 1) = some ((index :: inner) ++ outer) :=
        pending_succ_of_open opened waiting
      exact ih after (by simpa using length) found
    · cases inner with
      | nil => simp at length
      | cons top inner =>
        have after := pending_succ_of_close closed waiting
        cases depth with
        | zero =>
          rw [closeAt_zero_of_close closed] at found
          exact absurd (Option.some.inj found) (by omega)
        | succ depth =>
          rw [closeAt_succ_of_close closed] at found
          exact ih after (by simpa using length) found
    · rw [closeAt_of_other ne_open ne_close] at found
      exact ih ((pending_succ_of_other ne_open ne_close).trans waiting) length found

/-- Behind the partner of an opening marker the same markers are open as before it. -/
theorem pending_skip {text : List Char} {index close : Nat} {stack : List Nat}
    (waiting : pending text index = some stack) (opened : text[index]? = some loopOpen)
    (found : partner text index = some close) : pending text (close + 1) = some stack := by
  have entered : pending text (index + 1) = some ([index] ++ stack) :=
    pending_succ_of_open opened waiting
  obtain ⟨distance, rfl⟩ := Nat.exists_eq_add_of_le (le_of_closeAt found)
  exact pending_after_closeAt entered rfl found

/-- An opening marker without a partner stays open, and so do those around it. -/
theorem pending_of_no_partner {text : List Char} {start : Nat} {stack : List Nat}
    (waiting : pending text start = some stack) (opened : text[start]? = some loopOpen)
    (alone : partner text start = none) (index : Nat) (later : start < index) :
    ∃ inner, pending text index = some (inner ++ start :: stack) := by
  induction index, later using Nat.le_induction with
  | base => exact ⟨[], pending_succ_of_open opened waiting⟩
  | succ index _ ih =>
    obtain ⟨inner, before⟩ := ih
    rcases marker_cases text[index]? with opened | closed | ⟨ne_open, ne_close⟩
    · exact ⟨index :: inner, pending_succ_of_open opened before⟩
    · cases inner with
      | nil =>
        rw [partner_of_top before closed] at alone
        cases alone
      | cons top inner => exact ⟨inner, pending_succ_of_close closed before⟩
    · exact ⟨inner, (pending_succ_of_other ne_open ne_close).trans before⟩

/-! ## The scan and the counts -/

/-- Where the scan succeeds, the text is guarded, and the stack holds as many markers
as were opened and not closed. -/
theorem counts_of_pending {text : List Char} {index : Nat} {stack : List Nat}
    (waiting : pending text index = some stack) :
    GuardedTo text index ∧
      stack.length + closes (text.take index) = opens (text.take index) := by
  induction index generalizing stack with
  | zero =>
    cases waiting
    exact ⟨fun n le => by simp [Nat.le_zero.mp le], by simp⟩
  | succ index ih =>
    suffices step : GuardedTo text index ∧
        stack.length + closes (text.take (index + 1)) = opens (text.take (index + 1)) by
      constructor
      · intro n le
        rcases Nat.lt_or_eq_of_le le with earlier | rfl
        · exact step.1 n (Nat.le_of_lt_succ earlier)
        · exact Nat.le_of_add_left_le step.2.le
      · exact step.2
    rw [closes_take_succ, opens_take_succ]
    rcases pending_succ_cases waiting with ⟨opened, outer, before, rfl⟩ |
      ⟨closed, start, before⟩ | ⟨ne_open, ne_close, before⟩
    · obtain ⟨guarded, counts⟩ := ih before
      refine ⟨guarded, ?_⟩
      rw [opened, if_neg (by decide), if_pos rfl, List.length_cons]
      omega
    · obtain ⟨guarded, counts⟩ := ih before
      refine ⟨guarded, ?_⟩
      rw [List.length_cons] at counts
      rw [closed, if_pos rfl, if_neg (by decide)]
      omega
    · obtain ⟨guarded, counts⟩ := ih before
      rw [if_neg ne_open, if_neg ne_close]
      exact ⟨guarded, counts⟩

/-- The scan fails nowhere that the text is guarded. -/
theorem exists_pending {text : List Char} {index : Nat} (guarded : GuardedTo text index) :
    ∃ stack, pending text index = some stack := by
  induction index with
  | zero => exact ⟨[], rfl⟩
  | succ index ih =>
    obtain ⟨stack, before⟩ := ih (guarded.mono (Nat.le_succ _))
    rcases marker_cases text[index]? with opened | closed | ⟨ne_open, ne_close⟩
    · exact ⟨_, pending_succ_of_open opened before⟩
    · cases stack with
      | nil =>
        have bound := guarded (index + 1) le_rfl
        have counts := (counts_of_pending before).2
        rw [closes_take_succ, opens_take_succ, closed, if_pos rfl, if_neg (by decide)] at bound
        rw [List.length_nil] at counts
        omega
      | cons top stack => exact ⟨stack, pending_succ_of_close closed before⟩
    · exact ⟨stack, (pending_succ_of_other ne_open ne_close).trans before⟩

/-- A text is balanced exactly if the scan of all of it ends with nothing open. -/
theorem balanced_iff_pending (text : List Char) :
    Balanced text ↔ pending text text.length = some [] := by
  constructor
  · rintro ⟨guarded, equal⟩
    obtain ⟨stack, waiting⟩ := exists_pending guarded
    have counts := (counts_of_pending waiting).2
    rw [List.take_length, equal, Nat.add_eq_right] at counts
    rwa [List.length_eq_zero_iff.mp counts] at waiting
  · intro waiting
    obtain ⟨guarded, counts⟩ := counts_of_pending waiting
    rw [List.take_length, List.length_nil, Nat.zero_add] at counts
    exact ⟨guarded, counts.symm⟩

/-- An opening marker before the scan is on the stack unless its partner was passed. -/
theorem mem_pending_iff {text : List Char} {index : Nat} {stack : List Nat}
    (waiting : pending text index = some stack) (start : Nat) :
    start ∈ stack ↔ start < index ∧ text[start]? = some loopOpen ∧
      ∀ close < index, ¬ Partners text start close := by
  constructor
  · intro member
    obtain ⟨inner, outer, rfl⟩ := List.append_of_mem member
    obtain ⟨before, opened, -⟩ := pending_append waiting
    have alone : ∀ close < index, ¬ Partners text start close := by
      intro close passed partners
      have found := (partner_eq_some_iff opened).mpr partners
      exact absurd (le_of_partner waiting member found) (Nat.not_le.mpr passed)
    exact ⟨before, opened, alone⟩
  · rintro ⟨before, opened, alone⟩
    induction index generalizing stack with
    | zero => omega
    | succ index ih =>
      have alone_before : ∀ close < index, ¬ Partners text start close :=
        fun close lt => alone close (by omega)
      rcases pending_succ_cases waiting with ⟨-, outer, below, rfl⟩ |
        ⟨closed, top, below⟩ | ⟨ne_open, -, below⟩
      · rcases Nat.lt_or_eq_of_le (Nat.le_of_lt_succ before) with earlier | rfl
        · exact List.mem_cons_of_mem _ (ih below earlier alone_before)
        · exact List.mem_cons_self
      · have earlier : start < index := by
          apply Nat.lt_of_le_of_ne (Nat.le_of_lt_succ before)
          intro equal
          rw [equal, closed] at opened
          exact absurd opened (by decide)
        rcases List.mem_cons.mp (ih below earlier alone_before) with rfl | kept
        · -- The marker just taken off has its partner here.
          exact absurd ((partner_eq_some_iff opened).mp (partner_of_top below closed))
            (alone index (Nat.lt_succ_self _))
        · exact kept
      · have earlier : start < index := by
          apply Nat.lt_of_le_of_ne (Nat.le_of_lt_succ before)
          intro equal
          exact ne_open (equal ▸ opened)
        exact ih below earlier alone_before

theorem pairwise_pending {text : List Char} {index : Nat} {stack : List Nat}
    (waiting : pending text index = some stack) : stack.Pairwise (· > ·) := by
  induction stack generalizing index with
  | nil => exact List.Pairwise.nil
  | cons start outer ih =>
    obtain ⟨-, -, below⟩ := pending_cons waiting
    have greater : ∀ other ∈ outer, start > other := by
      intro other member
      exact ((mem_pending_iff below other).mp member).1
    exact List.pairwise_cons.mpr ⟨greater, ih below⟩

/-- The stack of the scan, read from the bottom, lists the open markers. -/
theorem reverse_pending {text : List Char} {index : Nat} {stack : List Nat}
    (waiting : pending text index = some stack) : stack.reverse = unclosed text index := by
  apply List.Pairwise.eq_of_mem_iff (r := (· < ·))
  · exact List.pairwise_reverse.mpr (pairwise_pending waiting)
  · exact List.pairwise_lt_range.filter _
  · intro start
    rw [List.mem_reverse, mem_pending_iff waiting, unclosed, List.mem_filter, List.mem_range,
      decide_eq_true_eq]

/-- The inner loop of an unfinished one is closed where it ends. -/
example : unclosed "[+[-]>".toList 4 = [0, 2] ∧ unclosed "[+[-]>".toList 6 = [0] := by decide

end RingTape.Nesting
