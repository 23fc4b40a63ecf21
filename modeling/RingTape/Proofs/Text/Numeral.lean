/-
# The grammar of numbers

A numeral is one digit or more behind one sign at most. It has a value, with any number of
leading zeros and of any size. What is read as a signed number of 64 bits is just the numerals
whose values are in that range, each with its value. That the limit is compared with after
every digit makes no difference, and neither does that the two signs have limits of their own.

An unsigned number is a numeral without a minus sign. Here it makes a difference, when the
text is none, that reading stops at the first fault: a text that begins with a number beyond
the limit is said to be too large, whatever follows.
-/

import Mathlib.Algebra.Ring.Int.Defs
import RingTape.Proofs.Text.Decimal

namespace RingTape.Decimal

/-- One digit or more, with the number that they spell. -/
structure Digits (cs : List Char) (n : Nat) : Prop where
  nonempty : cs ≠ []
  digits : ∀ c ∈ cs, c.isDigit
  value : n = Nat.ofDigitChars 10 cs 0

/-- The spelling of an integer: a sign, if there is one, and digits. -/
inductive Numeral : List Char → Int → Prop
  | plain {cs : List Char} {n : Nat} (digits : Digits cs n) : Numeral cs n
  | plus {cs : List Char} {n : Nat} (digits : Digits cs n) : Numeral ('+' :: cs) n
  | minus {cs : List Char} {n : Nat} (digits : Digits cs n) : Numeral ('-' :: cs) (-n)

variable {limit n : Nat} {cs : List Char}

/-- No other character is read as a digit. -/
theorem isDigit_of_digit? {c : Char} {d : Nat} (read : digit? c = some d) :
    c.isDigit ∧ d = c.toNat - '0'.toNat := by
  unfold digit? at read
  split at read
  · next between =>
    cases read
    exact ⟨Bool.and_eq_true_iff.mpr ⟨decide_eq_true between.1, decide_eq_true between.2⟩, rfl⟩
  · cases read

/-- What was read as a number is digits that spell it, and no more than the limit. -/
theorem digits_of_readDigits {acc : Nat} (small : acc ≤ limit)
    (read : readDigits limit acc cs = .ok n) :
    (∀ c ∈ cs, c.isDigit) ∧ n = Nat.ofDigitChars 10 cs acc ∧ n ≤ limit := by
  induction cs generalizing acc with
  | nil =>
    cases read
    exact ⟨List.forall_mem_nil _, Nat.ofDigitChars_nil.symm, small⟩
  | cons c rest ih =>
    rw [readDigits] at read
    cases first : digit? c with
    | none => simp [first] at read
    | some d =>
      obtain ⟨digit, rfl⟩ := isDigit_of_digit? first
      simp only [first] at read
      split at read
      · next fits =>
        obtain ⟨digits, value, le⟩ := ih fits read
        refine ⟨List.forall_mem_cons.mpr ⟨digit, digits⟩, ?_, le⟩
        rw [value, Nat.ofDigitChars_cons]
      · cases read

/-- Digits are read as the number that they spell, if that is no more than the limit. -/
theorem readNonempty_eq_ok_iff : readNonempty limit cs = .ok n ↔ Digits cs n ∧ n ≤ limit := by
  constructor
  · intro read
    unfold readNonempty at read
    split at read
    · cases read
    · next nonempty =>
      obtain ⟨digits, value, le⟩ := digits_of_readDigits (Nat.zero_le limit) read
      exact ⟨⟨nonempty, digits, value⟩, le⟩
  · rintro ⟨⟨nonempty, digits, rfl⟩, le⟩
    obtain ⟨c, rest, rfl⟩ := List.exists_cons_of_ne_nil nonempty
    exact readDigits_of_isDigit digits le

/-- Digits that are said to be too large begin with a number that is. -/
theorem exists_of_readDigits_eq_tooLarge {acc : Nat}
    (read : readDigits limit acc cs = .error .tooLarge) :
    ∃ front back, cs = front ++ back ∧ front ≠ [] ∧ (∀ c ∈ front, c.isDigit) ∧
      limit < Nat.ofDigitChars 10 front acc := by
  induction cs generalizing acc with
  | nil => cases read
  | cons c rest ih =>
    rw [readDigits] at read
    cases first : digit? c with
    | none => simp [first] at read
    | some d =>
      obtain ⟨digit, rfl⟩ := isDigit_of_digit? first
      simp only [first] at read
      split at read
      · obtain ⟨front, back, rfl, -, digits, large⟩ := ih read
        exact ⟨c :: front, back, rfl, List.cons_ne_nil _ _,
          List.forall_mem_cons.mpr ⟨digit, digits⟩, by rwa [Nat.ofDigitChars_cons]⟩
      · next large =>
        refine ⟨[c], rest, rfl, List.cons_ne_nil _ _, List.forall_mem_singleton.mpr digit, ?_⟩
        rw [Nat.ofDigitChars_cons, Nat.ofDigitChars_nil]
        exact Nat.lt_of_not_le large

/-- Where another fault was found first, no number at the beginning is too large. -/
theorem le_of_readDigits_eq_invalidDigit {acc : Nat} (small : acc ≤ limit)
    (read : readDigits limit acc cs = .error .invalidDigit) {front : List Char}
    (begins : front <+: cs) (digits : ∀ c ∈ front, c.isDigit) :
    Nat.ofDigitChars 10 front acc ≤ limit := by
  induction cs generalizing acc front with
  | nil => cases read
  | cons c rest ih =>
    cases front with
    | nil => rwa [Nat.ofDigitChars_nil]
    | cons c' front =>
      obtain ⟨rfl, behind⟩ := List.cons_prefix_cons.mp begins
      obtain ⟨digit, digits⟩ := List.forall_mem_cons.mp digits
      rw [readDigits, digit?_of_isDigit digit] at read
      rw [Nat.ofDigitChars_cons]
      simp only at read
      split at read
      · next fits => exact ih fits read behind digits
      · cases read

/-- Digits are not found missing. -/
theorem readDigits_ne_empty {acc : Nat} : readDigits limit acc cs ≠ .error .empty := by
  induction cs generalizing acc with
  | nil =>
    intro read
    cases read
  | cons c rest ih =>
    rw [readDigits]
    cases digit? c with
    | none =>
      intro read
      cases read
    | some d =>
      simp only
      split
      · exact ih
      · intro read
        cases read

/-- The same of what is made of the number that was read. -/
theorem map_readNonempty_eq_some_iff {f : Int → Int64} {value : Int64} :
    (readNonempty limit cs).toOption.map f = some value ↔
      ∃ n : Nat, Digits cs n ∧ n ≤ limit ∧ f n = value := by
  simp only [← and_assoc, ← readNonempty_eq_ok_iff]
  cases readNonempty limit cs <;> simp [Except.toOption]

/-- A number of 64 bits is read from just the numerals that spell it. -/
theorem int64?_eq_some_iff {value : Int64} :
    int64? cs = some value ↔ Numeral cs value.toInt := by
  have limit_eq : (maxInt64 : Int) = 2 ^ 63 - 1 := rfl
  constructor
  · intro read
    unfold int64? at read
    split at read
    · next rest =>
      obtain ⟨n, digits, le, rfl⟩ := map_readNonempty_eq_some_iff.mp read
      rw [Int64.toInt_ofInt_of_le (by omega) (by omega)]
      exact .minus digits
    · next rest =>
      obtain ⟨n, digits, le, rfl⟩ := map_readNonempty_eq_some_iff.mp read
      rw [Int64.toInt_ofInt_of_le (by omega) (by omega)]
      exact .plus digits
    · obtain ⟨n, digits, le, rfl⟩ := map_readNonempty_eq_some_iff.mp read
      rw [Int64.toInt_ofInt_of_le (by omega) (by omega)]
      exact .plain digits
  · intro numeral
    have low : -2 ^ 63 ≤ value.toInt := value.le_toInt
    have high : value.toInt < 2 ^ 63 := value.toInt_lt
    have held : Int64.ofInt value.toInt = value := Int64.ofInt_toInt value
    -- The bounds of the type are the limits of the two signs.
    generalize value.toInt = z at numeral low high held
    cases numeral with
    | @plain _ n digits =>
      obtain ⟨c, rest, rfl⟩ := List.exists_cons_of_ne_nil digits.nonempty
      rw [int64?_of_isDigit (digits.digits c List.mem_cons_self)]
      exact map_readNonempty_eq_some_iff.mpr ⟨n, digits, by omega, held⟩
    | @plus _ n digits => exact map_readNonempty_eq_some_iff.mpr ⟨n, digits, by omega, held⟩
    | @minus _ n digits => exact map_readNonempty_eq_some_iff.mpr ⟨n, digits, by omega, held⟩

/-- No number of 64 bits is read from any other text. -/
theorem int64?_eq_none_iff :
    int64? cs = none ↔ ¬ ∃ z, Numeral cs z ∧ -2 ^ 63 ≤ z ∧ z ≤ 2 ^ 63 - 1 := by
  rw [Option.eq_none_iff_forall_ne_some]
  constructor
  · rintro unread ⟨z, numeral, low, high⟩
    have held : (Int64.ofInt z).toInt = z := Int64.toInt_ofInt_of_le low (by omega)
    exact unread (Int64.ofInt z) (int64?_eq_some_iff.mpr (held.symm ▸ numeral))
  · rintro outside value read
    have high := value.toInt_lt
    exact outside ⟨_, int64?_eq_some_iff.mp read, value.le_toInt, by omega⟩

/-! ## Unsigned numbers -/

/-- The spelling of a natural number: digits, behind a plus sign or not. -/
inductive Unsigned : List Char → Nat → Prop
  | plain {cs : List Char} {n : Nat} (digits : Digits cs n) : Unsigned cs n
  | plus {cs : List Char} {n : Nat} (digits : Digits cs n) : Unsigned ('+' :: cs) n

theorem Unsigned.ne_nil (unsigned : Unsigned cs n) : cs ≠ [] := by
  cases unsigned with
  | plain digits => exact digits.nonempty
  | plus digits => exact List.cons_ne_nil _ _

/-- A text spells one natural number at most. -/
theorem Unsigned.unique {n' : Nat} (unsigned : Unsigned cs n) (other : Unsigned cs n') : n' = n := by
  cases unsigned with
  | plain digits =>
    cases other with
    | plain digits' => rw [digits.value, digits'.value]
    | plus => exact absurd (digits.digits '+' List.mem_cons_self) (by decide)
  | plus digits =>
    cases other with
    | plain digits' => exact absurd (digits'.digits '+' List.mem_cons_self) (by decide)
    | plus digits' => rw [digits.value, digits'.value]

/-- A plus sign in front is passed over. Without one there must be a character. -/
theorem readNatural_cases (limit : Nat) (cs : List Char) :
    (cs = [] ∧ readNatural limit cs = .error .empty) ∨
    (∃ rest, cs = '+' :: rest ∧ readNatural limit cs = readNonempty limit rest) ∨
    (cs ≠ [] ∧ (∀ rest, cs ≠ '+' :: rest) ∧ readNatural limit cs = readNonempty limit cs) := by
  unfold readNatural
  split
  · exact .inl ⟨rfl, rfl⟩
  · next rest => exact .inr (.inl ⟨rest, rfl, rfl⟩)
  · next nonempty unsigned => exact .inr (.inr ⟨nonempty, unsigned, rfl⟩)

/-- A plus sign is no digit, so it is spelled by the sign alone. -/
theorem unsigned_plus_iff {rest : List Char} : Unsigned ('+' :: rest) n ↔ Digits rest n := by
  constructor
  · intro unsigned
    cases unsigned with
    | plain digits => exact absurd (digits.digits '+' List.mem_cons_self) (by decide)
    | plus digits => exact digits
  · exact .plus

theorem unsigned_iff_of_ne_plus (other : ∀ rest, cs ≠ '+' :: rest) :
    Unsigned cs n ↔ Digits cs n := by
  constructor
  · intro unsigned
    cases unsigned with
    | plain digits => exact digits
    | plus digits => exact absurd rfl (other _)
  · exact .plain

/-- A natural number is read from just the texts that spell one within the limit. -/
theorem readNatural_eq_ok_iff : readNatural limit cs = .ok n ↔ Unsigned cs n ∧ n ≤ limit := by
  rcases readNatural_cases limit cs with ⟨rfl, read⟩ | ⟨rest, rfl, read⟩ | ⟨-, other, read⟩
  · rw [read]
    exact ⟨(nomatch ·), fun spelled => absurd rfl spelled.1.ne_nil⟩
  · rw [read, readNonempty_eq_ok_iff, unsigned_plus_iff]
  · rw [read, readNonempty_eq_ok_iff, unsigned_iff_of_ne_plus other]

theorem eq_nil_of_readNatural_eq_empty (read : readNatural limit cs = .error .empty) : cs = [] := by
  have filled (cs : List Char) : readNonempty limit cs ≠ .error .empty := by
    unfold readNonempty
    split
    · intro none_read
      cases none_read
    · exact readDigits_ne_empty
  rcases readNatural_cases limit cs with ⟨nil, -⟩ | ⟨rest, -, read'⟩ | ⟨-, -, read'⟩
  · exact nil
  · exact absurd (read'.symm.trans read) (filled rest)
  · exact absurd (read'.symm.trans read) (filled cs)

/-- A text that is said to be too large begins with a number beyond the limit. -/
theorem exists_of_readNatural_eq_tooLarge (read : readNatural limit cs = .error .tooLarge) :
    ∃ front back n, cs = front ++ back ∧ Unsigned front n ∧ limit < n := by
  have digits {cs : List Char} (read : readNonempty limit cs = .error .tooLarge) :
      ∃ front back n, cs = front ++ back ∧ Digits front n ∧ limit < n := by
    unfold readNonempty at read
    split at read
    · cases read
    · obtain ⟨front, back, cut, nonempty, digits, large⟩ := exists_of_readDigits_eq_tooLarge read
      exact ⟨front, back, _, cut, ⟨nonempty, digits, rfl⟩, large⟩
  rcases readNatural_cases limit cs with ⟨-, read'⟩ | ⟨rest, rfl, read'⟩ | ⟨-, -, read'⟩
  · rw [read'] at read
    cases read
  · obtain ⟨front, back, n, rfl, spelled, large⟩ := digits (read'.symm.trans read)
    exact ⟨'+' :: front, back, n, rfl, .plus spelled, large⟩
  · obtain ⟨front, back, n, cut, spelled, large⟩ := digits (read'.symm.trans read)
    exact ⟨front, back, n, cut, .plain spelled, large⟩

/-- In one that holds a character that is no digit, no number at the beginning is beyond it. -/
theorem le_of_readNatural_eq_invalidDigit (read : readNatural limit cs = .error .invalidDigit) :
    cs ≠ [] ∧ ∀ front n, front <+: cs → Unsigned front n → n ≤ limit := by
  have digits {cs : List Char} (read : readNonempty limit cs = .error .invalidDigit)
      {front : List Char} {n : Nat} (begins : front <+: cs) (spelled : Digits front n) :
      n ≤ limit := by
    unfold readNonempty at read
    split at read
    · exact absurd (List.prefix_nil.mp begins) spelled.nonempty
    · rw [spelled.value]
      exact le_of_readDigits_eq_invalidDigit (Nat.zero_le limit) read begins spelled.digits
  rcases readNatural_cases limit cs with ⟨-, read'⟩ | ⟨rest, rfl, read'⟩ | ⟨nonempty, other, read'⟩
  · rw [read'] at read
    cases read
  · refine ⟨List.cons_ne_nil _ _, fun front n begins spelled => ?_⟩
    cases spelled with
    | plain spelled =>
      -- What stands in front of these digits is no digit, so there are none.
      obtain ⟨c, front, rfl⟩ := List.exists_cons_of_ne_nil spelled.nonempty
      obtain ⟨rfl, -⟩ := List.cons_prefix_cons.mp begins
      exact absurd (spelled.digits '+' List.mem_cons_self) (by decide)
    | plus spelled =>
      exact digits (read'.symm.trans read) (List.cons_prefix_cons.mp begins).2 spelled
  · refine ⟨nonempty, fun front n begins spelled => ?_⟩
    cases spelled with
    | plain spelled => exact digits (read'.symm.trans read) begins spelled
    | plus spelled =>
      obtain ⟨back, rfl⟩ := begins
      exact absurd rfl (other _)

end RingTape.Decimal
