/-
# Trimming

A text is trimmed at both ends of what is blank there. A blank at the end makes no
difference to it, and neither does the ending of a line; a text without blanks is left as it
is, and so is one that was trimmed before. Who looks only for characters that are not blank
finds as many in the trimmed text.
-/

import Mathlib.Data.List.DropRight
import RingTape.Text.Blank

namespace RingTape.Text

theorem dropBackWhile_concat {α : Type} (p : α → Bool) (xs : List α) (x : α) :
    dropBackWhile p (xs ++ [x]) = if p x then dropBackWhile p xs else xs ++ [x] := by
  cases dropped : p x <;> simp [dropBackWhile, dropped]

/-- A blank at the end is trimmed. -/
theorem trimList_concat {c : Char} (blank : isBlank c) (cs : List Char) :
    trimList (cs ++ [c]) = trimList cs := by
  rw [trimList, trimList, List.dropWhile_append]
  cases empty : (cs.dropWhile isBlank).isEmpty with
  | true =>
    rw [List.isEmpty_iff.mp empty, if_pos rfl, List.dropWhile_cons_of_pos blank]
    rfl
  | false => rw [if_neg Bool.false_ne_true, dropBackWhile_concat, if_pos blank]

/-- The ending of a line is blank, so that it makes no difference to trimming. -/
theorem trimList_trimLineEnd (line : String) :
    trimList (trimLineEnd line).toList = trimList line.toList := by
  rw [trimLineEnd, String.toList_ofList]
  induction line.toList using List.reverseRecOn with
  | nil => rfl
  | append_singleton cs c ih =>
    rw [dropBackWhile_concat]
    split
    · next ending =>
      have blank : isBlank c := by
        rcases (Bool.or_eq_true_iff.mp ending).imp of_decide_eq_true of_decide_eq_true with
          rfl | rfl <;> decide
      rw [ih, trimList_concat blank]
    · rfl

/-- A digit is not blank. -/
theorem isBlank_of_isDigit {c : Char} (digit : c.isDigit) : isBlank c = false := by
  obtain ⟨low, high⟩ := Bool.and_eq_true_iff.mp digit
  have codes : ∀ code < 58, 48 ≤ code →
      (blankRanges.any fun range => range.1 ≤ code && code ≤ range.2) = false := by decide
  exact codes c.toNat (Nat.lt_succ_of_le (of_decide_eq_true high)) (of_decide_eq_true low)

/-- Where no character is blank, nothing is trimmed. -/
theorem trimList_of_not_blank {cs : List Char} (solid : ∀ c ∈ cs, isBlank c = false) :
    trimList cs = cs := by
  have front : cs.dropWhile isBlank = cs := by
    cases cs with
    | nil => rfl
    | cons c rest => rw [List.dropWhile_cons_of_neg (by simp [solid c List.mem_cons_self])]
  rw [trimList, front]
  induction cs using List.reverseRecOn with
  | nil => rfl
  | append_singleton cs c =>
    have last : isBlank c = false := solid c (List.mem_append_right cs List.mem_cons_self)
    rw [dropBackWhile_concat, if_neg (by simp [last])]

/-- A text that was trimmed has no blank at its beginning, -/
theorem dropWhile_trimList (cs : List Char) : (trimList cs).dropWhile isBlank = trimList cs := by
  let rest := cs.dropWhile isBlank
  have first : rest.rdropWhile isBlank <+: rest := List.rdropWhile_prefix isBlank rest
  change (rest.rdropWhile isBlank).dropWhile isBlank = rest.rdropWhile isBlank
  apply List.dropWhile_eq_self_iff.mpr
  intro nonempty
  -- Its first character is one that the first dropping stopped at.
  have stopped : rest.dropWhile isBlank = rest := List.dropWhile_idempotent isBlank cs
  rw [first.getElem nonempty]
  exact List.dropWhile_eq_self_iff.mp stopped (nonempty.trans_le first.length_le)

/-- and none at its end. -/
theorem rdropWhile_trimList (cs : List Char) : (trimList cs).rdropWhile isBlank = trimList cs :=
  List.rdropWhile_idempotent isBlank _

@[simp] theorem trimList_trimList (cs : List Char) : trimList (trimList cs) = trimList cs := by
  rw [trimList, dropWhile_trimList]
  exact rdropWhile_trimList cs

/-- What is left of a text without the blanks at its ends. -/
structure IsCore (text core : List Char) : Prop where
  around : ∃ front back, text = front ++ core ++ back ∧ ∀ c ∈ front ++ back, isBlank c
  first : ∀ c ∈ core.head?, isBlank c = false
  last : ∀ c ∈ core.getLast?, isBlank c = false

/-- What is left of a line without the carriage returns and newlines at its end. -/
structure IsUnended (line rest : List Char) : Prop where
  behind : ∃ ending, line = rest ++ ending ∧ ∀ c ∈ ending, c = '\n' ∨ c = '\r'
  last : ∀ c ∈ rest.getLast?, c ≠ '\n' ∧ c ≠ '\r'

/-- Where nothing is dropped from the end, the last member is to be kept. -/
theorem getLast?_of_rdropWhile {p : Char → Bool} {cs : List Char} (kept : cs.rdropWhile p = cs) :
    ∀ c ∈ cs.getLast?, p c = false := by
  intro c last
  obtain ⟨nonempty, rfl⟩ := List.mem_getLast?_eq_getLast last
  exact Bool.eq_false_iff.mpr (List.rdropWhile_eq_self_iff.mp kept nonempty)

/-- What is to be dropped behind a text that is not is all that is dropped. -/
theorem rdropWhile_append {p : Char → Bool} {cs back : List Char}
    (last : ∀ c ∈ cs.getLast?, p c = false) (dropped : ∀ c ∈ back, p c) :
    (cs ++ back).rdropWhile p = cs := by
  have kept : cs.rdropWhile p = cs :=
    List.rdropWhile_eq_self_iff.mpr fun nonempty =>
      Bool.eq_false_iff.mp (last _ (List.getLast?_eq_getLast_of_ne_nil nonempty))
  rw [List.rdropWhile, List.reverse_append,
    List.dropWhile_append_of_pos fun c member => dropped c (List.mem_reverse.mp member)]
  exact kept

/-- Trimming leaves the core of a text. -/
theorem isCore_trimList (cs : List Char) : IsCore cs (trimList cs) where
  around := by
    refine ⟨cs.takeWhile isBlank, (cs.dropWhile isBlank).rtakeWhile isBlank, ?_, fun c member => ?_⟩
    · have cut : trimList cs ++ (cs.dropWhile isBlank).rtakeWhile isBlank = cs.dropWhile isBlank :=
        List.rdropWhile_append_rtakeWhile
      rw [List.append_assoc, cut, List.takeWhile_append_dropWhile]
    · rcases List.mem_append.mp member with front | back
      · exact List.mem_takeWhile_imp front
      · exact List.mem_rtakeWhile_imp back
  first := by
    intro c first
    have kept := dropWhile_trimList cs
    obtain ⟨rest, spelled⟩ := List.head?_eq_some_iff.mp first
    rw [spelled] at kept
    exact Bool.eq_false_iff.mpr (List.dropWhile_eq_self_iff.mp kept (Nat.succ_pos _))
  last := getLast?_of_rdropWhile (rdropWhile_trimList cs)

/-- A text has one core only. -/
theorem IsCore.eq_trimList {text core : List Char} (isCore : IsCore text core) :
    core = trimList text := by
  obtain ⟨⟨front, back, rfl, blank⟩, first, last⟩ := isCore
  have blank_back : ∀ c ∈ back, isBlank c := fun c member => blank c (List.mem_append_right _ member)
  have begins : (core ++ back).dropWhile isBlank = core ++ back ∨ core = [] := by
    cases core with
    | nil => exact .inr rfl
    | cons c rest => exact .inl (List.dropWhile_cons_of_neg (Bool.eq_false_iff.mp (first c rfl)))
  rw [trimList, List.append_assoc,
    List.dropWhile_append_of_pos fun c member => blank c (List.mem_append_left _ member)]
  rcases begins with kept | rfl
  · rw [kept]
    exact (rdropWhile_append last blank_back).symm
  · rw [List.nil_append, List.dropWhile_eq_nil_iff.mpr blank_back]
    rfl

/-- What is trimmed off a line is its ending alone. -/
theorem isUnended_trimLineEnd (line : String) :
    IsUnended line.toList (trimLineEnd line).toList := by
  let ends (c : Char) : Bool := c = '\n' || c = '\r'
  have kept : (trimLineEnd line).toList = line.toList.rdropWhile ends := String.toList_ofList
  rw [kept]
  constructor
  · refine ⟨line.toList.rtakeWhile ends, List.rdropWhile_append_rtakeWhile.symm, fun c member => ?_⟩
    simpa [ends] using List.mem_rtakeWhile_imp member
  · intro c last
    simpa [ends] using
      getLast?_of_rdropWhile (List.rdropWhile_idempotent ends line.toList) c last

theorem IsUnended.eq_trimLineEnd {line rest : String}
    (isUnended : IsUnended line.toList rest.toList) : rest = trimLineEnd line := by
  obtain ⟨⟨ending, spelled, dropped⟩, last⟩ := isUnended
  have left : line.toList.rdropWhile (fun c => c = '\n' || c = '\r') = rest.toList := by
    rw [spelled]
    exact rdropWhile_append (by simpa using last) (by simpa using dropped)
  rw [trimLineEnd, ← String.toList_inj, String.toList_ofList]
  exact left.symm

/-- What is not blank is kept when a text is trimmed. -/
theorem filter_trimList {keep : Char → Bool} (solid : ∀ c, isBlank c → keep c = false)
    (cs : List Char) : (trimList cs).filter keep = cs.filter keep := by
  have front (xs : List Char) : (xs.dropWhile isBlank).filter keep = xs.filter keep := by
    induction xs with
    | nil => rfl
    | cons c rest ih =>
      cases blank : isBlank c with
      | true =>
        rw [List.dropWhile_cons_of_pos blank, List.filter_cons_of_neg (by simp [solid c blank]), ih]
      | false => rw [List.dropWhile_cons_of_neg (by simp [blank])]
  rw [trimList, dropBackWhile, List.filter_reverse, front, List.filter_reverse,
    List.reverse_reverse, front]

end RingTape.Text
