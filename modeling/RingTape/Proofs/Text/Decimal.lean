/-
# Numbers are read back

A number that was written in base ten is read back as the number it was, if the limit
allows it. Reading compares with the limit after every digit, but what is accumulated only
grows, so that the whole number is the only one to be compared. For signed numbers of 64
bits there are two limits, one for either sign, and both are met: the least number is one
further from zero than the greatest.
-/

import RingTape.Text.Decimal

namespace RingTape.Decimal

theorem digit?_of_isDigit {c : Char} (digit : c.isDigit) :
    digit? c = some (c.toNat - '0'.toNat) := by
  obtain ⟨low, high⟩ := Bool.and_eq_true_iff.mp digit
  exact if_pos ⟨of_decide_eq_true low, of_decide_eq_true high⟩

/-- More digits make no number smaller. -/
theorem le_ofDigitChars (cs : List Char) (acc : Nat) : acc ≤ Nat.ofDigitChars 10 cs acc := by
  rw [Nat.ofDigitChars_eq_ofDigitChars_zero]
  calc acc ≤ 10 ^ cs.length * acc := Nat.le_mul_of_pos_left acc (Nat.pow_pos (by decide))
    _ ≤ _ := Nat.le_add_right _ _

/-- Digits are read as the number that they spell behind those read before. -/
theorem readDigits_of_isDigit {limit : Nat} {cs : List Char} (digits : ∀ c ∈ cs, c.isDigit)
    {acc : Nat} (small : Nat.ofDigitChars 10 cs acc ≤ limit) :
    readDigits limit acc cs = .ok (Nat.ofDigitChars 10 cs acc) := by
  induction cs generalizing acc with
  | nil => rw [readDigits, Nat.ofDigitChars_nil]
  | cons c rest ih =>
    rw [Nat.ofDigitChars_cons] at small ⊢
    have fits : 10 * acc + (c.toNat - '0'.toNat) ≤ limit :=
      Nat.le_trans (le_ofDigitChars rest _) small
    rw [readDigits, digit?_of_isDigit (digits c List.mem_cons_self)]
    simp only [if_pos fits]
    exact ih (fun other member => digits other (List.mem_cons_of_mem c member)) small

theorem isDigit_of_mem_toDigits {n : Nat} {c : Char} (member : c ∈ Nat.toDigits 10 n) :
    c.isDigit :=
  Nat.isDigit_of_mem_toDigits (by decide) (by decide) member

/-- A natural number is read back up to the limit. -/
theorem readNonempty_toDigits {limit n : Nat} (small : n ≤ limit) :
    readNonempty limit (Nat.toDigits 10 n) = .ok n := by
  have value : Nat.ofDigitChars 10 (Nat.toDigits 10 n) 0 = n := Nat.ofDigitChars_ten_toDigits
  have read : readDigits limit 0 (Nat.toDigits 10 n) = .ok n := by
    rw [readDigits_of_isDigit (fun c => isDigit_of_mem_toDigits) (value.symm ▸ small), value]
  cases spelled : Nat.toDigits 10 n with
  | nil => exact absurd spelled Nat.toDigits_ne_nil
  | cons c rest =>
    rw [spelled] at read
    exact read

/-- Without a sign a number is read as one that is not negative. -/
theorem int64?_of_isDigit {c : Char} (digit : c.isDigit) (rest : List Char) :
    int64? (c :: rest) =
      (readNonempty maxInt64 (c :: rest)).toOption.map fun value => Int64.ofInt value := by
  rw [int64?.eq_3]
  · rintro other equal
    cases equal
    exact absurd digit (by decide)
  · rintro other equal
    cases equal
    exact absurd digit (by decide)

theorem int64?_toDigits (n : Nat) :
    int64? (Nat.toDigits 10 n) =
      (readNonempty maxInt64 (Nat.toDigits 10 n)).toOption.map fun value => Int64.ofInt value := by
  cases spelled : Nat.toDigits 10 n with
  | nil => rfl
  | cons c rest =>
    exact int64?_of_isDigit (isDigit_of_mem_toDigits (spelled ▸ List.mem_cons_self)) rest

/-- A number that is not negative is written with its digits alone, -/
theorem toList_toString_ofNat (n : Nat) : (toString (Int.ofNat n)).toList = Nat.toDigits 10 n :=
  String.toList_ofList

/-- and any other with a minus sign in front of them. -/
theorem toList_toString_negSucc (n : Nat) :
    (toString (Int.negSucc n)).toList = '-' :: Nat.toDigits 10 (n + 1) := by
  have spelled : toString (Int.negSucc n) = "-" ++ String.ofList (Nat.toDigits 10 (n + 1)) := rfl
  rw [spelled, String.toList_append]
  exact congrArg ('-' :: ·) String.toList_ofList

/-- A signed number of 64 bits is read back, the least one and the greatest included. -/
theorem int64?_toString (value : Int64) : int64? (toString value.toInt).toList = some value := by
  have low : -2 ^ 63 ≤ value.toInt := value.le_toInt
  have high : value.toInt < 2 ^ 63 := value.toInt_lt
  cases number : value.toInt with
  | ofNat n =>
    rw [number] at high
    have small : n ≤ maxInt64 := by
      have : (n : Int) < 2 ^ 63 := high
      unfold maxInt64
      omega
    rw [toList_toString_ofNat, int64?_toDigits, readNonempty_toDigits small]
    show some (Int64.ofInt (Int.ofNat n)) = some value
    rw [← number, Int64.ofInt_toInt]
  | negSucc n =>
    rw [number] at low
    have small : n + 1 ≤ maxInt64 + 1 := by
      unfold maxInt64
      omega
    rw [toList_toString_negSucc, int64?, readNonempty_toDigits small]
    show some (Int64.ofInt (Int.negSucc n)) = some value
    rw [← number, Int64.ofInt_toInt]

/-- A written number consists of digits, and of a minus sign if it is negative. -/
theorem mem_toString {z : Int} {c : Char} (member : c ∈ (toString z).toList) :
    c = '-' ∨ c.isDigit := by
  cases z with
  | ofNat n =>
    rw [toList_toString_ofNat] at member
    exact .inr (isDigit_of_mem_toDigits member)
  | negSucc n =>
    rw [toList_toString_negSucc, List.mem_cons] at member
    exact member.imp_right isDigit_of_mem_toDigits

end RingTape.Decimal
