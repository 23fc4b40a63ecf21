/-
# Pages of a tape

A window shows one page of a tape, the one that holds the pointer. The pages lie side by side
from the first cell to the last, so two windows of one size show the same page or have no cell
in common, and every cell is in one of them. The line that shows a tape is such a page, with
the cell at the pointer marked.

The window is computed with natural numbers. In words of 64 bits a sum may be too large, a
difference too small, and there may be nothing to cut out; on a tape that fits into memory
none of that happens, whatever the size of the page.
-/

import RingTape.Proofs.Session.Submissions
import RingTape.Proofs.Tape.Ring
import RingTape.Proofs.Text.Decimal

namespace RingTape

/-! ## In words -/

namespace Word

/-- The sum of two words, if it is a word. -/
def add? (a b : UInt64) : Option UInt64 :=
  if a.toNat + b.toNat < 2 ^ 64 then some (a + b) else none

/-- The difference of two words, if it is a word. -/
def sub? (a b : UInt64) : Option UInt64 := if b ≤ a then some (a - b) else none

/-- The remainder of two words, if the second is not zero. -/
def rem? (a b : UInt64) : Option UInt64 := if b = 0 then none else some (a % b)

/-- The items of an array from one index to another, if the indices are in order and in the
array. -/
def slice? {α : Type} (xs : Array α) (start stop : UInt64) : Option (Array α) :=
  if start ≤ stop ∧ stop.toNat ≤ xs.size then some (xs.extract start.toNat stop.toNat) else none

theorem exists_add? {a b : UInt64} (small : a.toNat + b.toNat < 2 ^ 64) :
    ∃ c, add? a b = some c ∧ c.toNat = a.toNat + b.toNat :=
  ⟨a + b, if_pos small, by rw [UInt64.toNat_add, Nat.mod_eq_of_lt small]⟩

theorem exists_sub? {a b : UInt64} (le : b.toNat ≤ a.toNat) :
    ∃ c, sub? a b = some c ∧ c.toNat = a.toNat - b.toNat :=
  ⟨a - b, if_pos (UInt64.le_iff_toNat_le.mpr le),
    UInt64.toNat_sub_of_le a b (UInt64.le_iff_toNat_le.mpr le)⟩

theorem exists_rem? {a b : UInt64} (positive : 0 < b.toNat) :
    ∃ c, rem? a b = some c ∧ c.toNat = a.toNat % b.toNat := by
  have nonzero : b ≠ 0 := fun zero => by simp [zero] at positive
  exact ⟨a % b, if_neg nonzero, UInt64.toNat_mod a b⟩

theorem slice?_of_le {α : Type} {xs : Array α} {start stop : UInt64}
    (ordered : start.toNat ≤ stop.toNat) (inside : stop.toNat ≤ xs.size) :
    slice? xs start stop = some (xs.extract start.toNat stop.toNat) :=
  if_pos ⟨UInt64.le_iff_toNat_le.mpr ordered, inside⟩

theorem toNat_max (a b : UInt64) : (max a b).toNat = max a.toNat b.toNat := by
  show (if a ≤ b then b else a).toNat = _
  split
  · next le => exact (Nat.max_eq_right (UInt64.le_iff_toNat_le.mp le)).symm
  · next not_le =>
    rw [UInt64.le_iff_toNat_le] at not_le
    exact (Nat.max_eq_left (by omega)).symm

theorem toNat_min (a b : UInt64) : (min a b).toNat = min a.toNat b.toNat := by
  show (if a ≤ b then a else b).toNat = _
  split
  · next le => exact (Nat.min_eq_left (UInt64.le_iff_toNat_le.mp le)).symm
  · next not_le =>
    rw [UInt64.le_iff_toNat_le] at not_le
    exact (Nat.min_eq_right (by omega)).symm

end Word

namespace Tape

variable {t other : Tape} {size index : Nat}

/-- The window of a tape, computed in words. There is none if an operation fails. -/
def windowInWords? (t : Tape) (size : UInt64) : Option (UInt64 × Array Int64) := do
  let page := max size 1
  let pointer := UInt64.ofNat t.pointer
  let base ← Word.sub? pointer (← Word.rem? pointer page)
  let stop ← Word.add? base page
  return (base, ← Word.slice? t.cells base (min stop (UInt64.ofNat t.size)))

/-! ## Pages -/

/-- Cells of a tape from some index on that are its page of a size around the pointer. A page
of no cells counts as one of a single cell. -/
structure IsPage (t : Tape) (size base : Nat) (cells : Array Int64) : Prop where
  aligned : max size 1 ∣ base
  base_le : base ≤ t.pointer
  pointer_lt : t.pointer < base + cells.size
  size_eq : cells.size = min (max size 1) (t.size - base)
  getElem?_eq : ∀ k < cells.size, cells[k]? = t.cells[base + k]?

/-- A window shows the page around the pointer. -/
theorem isPage_window (t : Tape) (size : Nat) :
    t.IsPage size (t.window size).1 (t.window size).2 := by
  have inside : t.pointer < t.size := t.pointer_lt
  have positive : 0 < max size 1 := by omega
  have below := Nat.mod_lt t.pointer positive
  have counted := Nat.mod_le t.pointer (max size 1)
  have length : (t.window size).2.size = min (max size 1) (t.size - (t.window size).1) := by
    simp only [window, Array.size_extract, Tape.size]
    omega
  refine ⟨Nat.dvd_sub_mod t.pointer, Nat.sub_le _ _, ?_, length, ?_⟩
  · rw [length]
    simp only [window]
    omega
  · intro k shown
    have extracted : k < min (min ((t.window size).1 + max size 1) t.cells.size) t.cells.size -
        (t.window size).1 := by
      rw [length] at shown
      simp only [Tape.size] at shown
      omega
    exact Array.getElem?_extract.trans (if_pos extracted)

/-- In words the window is the same, if the tape is one that fits into memory. -/
theorem exists_windowInWords? (allocated : 8 * t.size < 2 ^ 63) (size : UInt64) :
    ∃ base, t.windowInWords? size = some (base, (t.window size.toNat).2) ∧
      base.toNat = (t.window size.toNat).1 := by
  have inside : t.pointer < t.size := t.pointer_lt
  have page : (max size 1).toNat = max size.toNat 1 := Word.toNat_max size 1
  have pointer : (UInt64.ofNat t.pointer).toNat = t.pointer :=
    UInt64.toNat_ofNat_of_lt' (by simp [UInt64.size]; omega)
  have length : (UInt64.ofNat t.size).toNat = t.size :=
    UInt64.toNat_ofNat_of_lt' (by simp [UInt64.size]; omega)
  have counted := Nat.mod_le t.pointer (max size.toNat 1)
  obtain ⟨offset, offset_eq, offset_value⟩ :=
    Word.exists_rem? (a := UInt64.ofNat t.pointer) (b := max size 1) (by omega)
  rw [pointer, page] at offset_value
  obtain ⟨base, base_eq, base_value⟩ :=
    Word.exists_sub? (a := UInt64.ofNat t.pointer) (b := offset) (by omega)
  rw [pointer, offset_value] at base_value
  have word := (max size 1).toNat_lt
  -- A page that reaches behind the pointer starts at the first cell; any other is no larger
  -- than the tape.
  have small : base.toNat + (max size 1).toNat < 2 ^ 64 := by
    rcases Nat.lt_or_ge t.pointer (max size.toNat 1) with reaches | within
    · rw [Nat.mod_eq_of_lt reaches] at base_value
      omega
    · omega
  obtain ⟨stop, stop_eq, stop_value⟩ := Word.exists_add? small
  rw [base_value, page] at stop_value
  have end_value : (min stop (UInt64.ofNat t.size)).toNat =
      min ((t.window size.toNat).1 + max size.toNat 1) t.size := by
    rw [Word.toNat_min, stop_value, length]
    rfl
  have ordered : base.toNat ≤ (min stop (UInt64.ofNat t.size)).toNat := by
    rw [Word.toNat_min, stop_value, length, base_value]
    omega
  have within : (min stop (UInt64.ofNat t.size)).toNat ≤ t.cells.size :=
    end_value ▸ Nat.min_le_right _ _
  have cut := Word.slice?_of_le ordered within
  refine ⟨base, ?_, base_value⟩
  simp only [windowInWords?, offset_eq, base_eq, stop_eq, cut, Option.bind_eq_bind,
    Option.bind_some, Option.pure_def]
  rw [base_value, end_value]
  rfl

/-- Whether a cell is one of those that a window shows. -/
def Shows (t : Tape) (size index : Nat) : Prop :=
  (t.window size).1 ≤ index ∧ index < (t.window size).1 + (t.window size).2.size

/-- A window shows the cell at the pointer. -/
theorem shows_pointer (t : Tape) (size : Nat) : t.Shows size t.pointer :=
  ⟨(t.isPage_window size).base_le, (t.isPage_window size).pointer_lt⟩

/-- Windows of one size on the same cells are the same window, or no cell is in both. -/
theorem window_eq_or_disjoint (same : other.cells = t.cells) (size : Nat) :
    other.window size = t.window size ∨
      ∀ index, ¬ (t.Shows size index ∧ other.Shows size index) := by
  have one := t.isPage_window size
  have two := other.isPage_window size
  obtain ⟨first, first_eq⟩ := one.aligned
  obtain ⟨second, second_eq⟩ := two.aligned
  by_cases equal : first = second
  · left
    have base : other.pointer - other.pointer % max size 1 = t.pointer - t.pointer % max size 1 :=
      second_eq.trans (equal ▸ first_eq.symm)
    rw [window, window, same]
    simp only [base]
  · right
    rintro index ⟨⟨from_one, to_one⟩, from_two, to_two⟩
    rw [one.size_eq] at to_one
    rw [two.size_eq] at to_two
    -- The page that starts earlier ends where the other starts, or before.
    rcases Nat.lt_or_gt_of_ne equal with earlier | later
    · have apart := Nat.mul_le_mul_left (max size 1) (Nat.succ_le_of_lt earlier)
      rw [Nat.mul_succ] at apart
      omega
    · have apart := Nat.mul_le_mul_left (max size 1) (Nat.succ_le_of_lt later)
      rw [Nat.mul_succ] at apart
      omega

/-- Every cell is in the window of some place of the pointer. -/
theorem exists_shows (t : Tape) (size : Nat) (inside : index < t.size) :
    ∃ other : Tape, other.cells = t.cells ∧ other.Shows size index :=
  let other : Tape := { t with pointer := index, pointer_lt := inside }
  ⟨other, rfl, other.shows_pointer size⟩

/-! ## The line of a tape -/

/-- A row of cells around the pointer is shown as their numbers, that of the cell at the
pointer between brackets. -/
theorem viewCells_eq {base : Nat} {before after : List Int64} {value : Int64}
    (here : base + before.length = t.pointer) :
    t.viewCells base (before ++ value :: after) =
      (before.map fun value => toString value.toInt) ++
        ("[" ++ toString value.toInt ++ "]") :: after.map fun value => toString value.toInt := by
  have plain (cells : List Int64) (place : Nat → Nat)
      (away : ∀ k < cells.length, base + place k ≠ t.pointer) :
      (cells.mapIdx fun k value =>
        if base + place k = t.pointer then "[" ++ toString value.toInt ++ "]"
        else toString value.toInt) = cells.map fun value => toString value.toInt := by
    refine List.ext_getElem (by simp) fun k inside _ => ?_
    rw [List.length_mapIdx] at inside
    rw [List.getElem_mapIdx, List.getElem_map, if_neg (away k inside)]
  rw [viewCells, List.mapIdx_append, List.mapIdx_cons, Nat.zero_add, if_pos here]
  congr 1
  · exact plain before id fun k inside => by
      rw [id]
      omega
  · congr 1
    exact plain after (fun k => k + 1 + before.length) fun k _ => by omega

/-- There are no brackets in a number. -/
theorem bracket_notMem_toString (value : Int64) :
    '[' ∉ (toString value.toInt).toList ∧ ']' ∉ (toString value.toInt).toList := by
  have spelled {c : Char} (member : c ∈ (toString value.toInt).toList) : c = '-' ∨ c.isDigit :=
    Decimal.mem_toString member
  exact ⟨fun member => absurd (spelled member) (by decide),
    fun member => absurd (spelled member) (by decide)⟩

/-- The line of a tape shows the cells of the page before the pointer, the cell at the pointer
between brackets, and those behind it. -/
theorem exists_view_eq (t : Tape) : ∃ before after : List Int64,
    (t.window viewSize).2.toList = before ++ t.get :: after ∧
    (t.window viewSize).1 + before.length = t.pointer ∧
    t.view = "ptr=" ++ toString t.pointer ++ " cells[" ++
      toString (t.window viewSize).1 ++ ".." ++
      toString ((t.window viewSize).1 + (t.window viewSize).2.size) ++ "]: " ++
      " ".intercalate
        ((before.map fun value => toString value.toInt) ++
          ("[" ++ toString t.get.toInt ++ "]") :: after.map fun value => toString value.toInt) ++
      "\n" := by
  have page := t.isPage_window viewSize
  have reached := page.pointer_lt
  have base_le := page.base_le
  let cells := (t.window viewSize).2.toList
  let place := t.pointer - (t.window viewSize).1
  have inside : place < cells.length := by
    simp only [cells, place, Array.length_toList]
    omega
  have cell : cells[place] = t.get := by
    have shown := page.getElem?_eq place (by simpa [cells] using inside)
    rw [show (t.window viewSize).1 + place = t.pointer by omega, t.getElem?_pointer] at shown
    rw [Array.getElem_toList]
    exact (Array.getElem?_eq_some_iff.mp shown).2
  have row : cells = cells.take place ++ t.get :: cells.drop (place + 1) := by
    rw [← cell, ← List.drop_eq_getElem_cons inside, List.take_append_drop]
  have here : (t.window viewSize).1 + (cells.take place).length = t.pointer := by
    rw [List.length_take_of_le inside.le]
    omega
  refine ⟨cells.take place, cells.drop (place + 1), row, here, ?_⟩
  rw [← viewCells_eq here, ← row]
  rfl

/-- On a tape that fits into memory a window can be computed in words for every size of page:
it is the page around the pointer. Two windows of one size on the same cells show the same
page or have no cell in common, and every cell is in a window. The request for the tape is
answered with the page of at most 16 cells, in their order. The number at the pointer stands
between brackets, and there are none around the others. -/
theorem window_partitions (allocated : 8 * t.size < 2 ^ 63) :
    (∀ size : UInt64, ∃ base, t.windowInWords? size = some (base, (t.window size.toNat).2) ∧
      base.toNat = (t.window size.toNat).1 ∧
      t.IsPage size.toNat base.toNat (t.window size.toNat).2) ∧
    (∀ (size : Nat) (other : Tape), other.cells = t.cells →
      other.window size = t.window size ∨
        ∀ index, ¬ (t.Shows size index ∧ other.Shows size index)) ∧
    (∀ size index : Nat, index < t.size →
      ∃ other : Tape, other.cells = t.cells ∧ other.Shows size index) ∧
    ∀ (fuel : Nat) (once : Bool) (i : Interpreter), i.machine.tape = t →
      ∃ (base : Nat) (before after : List Int64),
        t.IsPage 16 base (before ++ t.get :: after).toArray ∧
        base + before.length = t.pointer ∧
        before.length + 1 + after.length ≤ 16 ∧
        Session.submit fuel once ":tape" i = some
          { interpreter := i
            shown := "ptr=" ++ toString t.pointer ++ " cells[" ++ toString base ++
              ".." ++ toString (base + (before.length + 1 + after.length)) ++ "]: " ++
              " ".intercalate
                ((before.map fun value => toString value.toInt) ++
                  ("[" ++ toString t.get.toInt ++ "]") ::
                    after.map fun value => toString value.toInt) ++
              "\n" } ∧
        ∀ value ∈ before ++ after,
          '[' ∉ (toString value.toInt).toList ∧ ']' ∉ (toString value.toInt).toList := by
  refine ⟨fun size => ?_, fun size other same => window_eq_or_disjoint same size,
    fun size index inside => t.exists_shows size inside, ?_⟩
  · obtain ⟨base, computed, value⟩ := exists_windowInWords? allocated size
    exact ⟨base, computed, value, value ▸ t.isPage_window size.toNat⟩
  · rintro fuel once i rfl
    obtain ⟨before, after, row, here, line⟩ := i.machine.tape.exists_view_eq
    have cells : (i.machine.tape.window viewSize).2 =
        (before ++ i.machine.tape.get :: after).toArray := by
      rw [← row]
    have page := i.machine.tape.isPage_window viewSize
    rw [cells] at page line
    have counted : (before ++ i.machine.tape.get :: after).toArray.size =
        before.length + 1 + after.length := by
      rw [List.size_toArray, List.length_append, List.length_cons]
      omega
    have count := page.size_eq
    have most : max viewSize 1 = 16 := rfl
    rw [counted] at line
    refine ⟨(i.machine.tape.window viewSize).1, before, after, page, here, by omega, ?_,
      fun value _ => bracket_notMem_toString value⟩
    have request : Text.trimList ":tape".toList = ':' :: "tape".toList := by decide
    rw [Session.submit_request request, ← line]
    rfl

/-- The largest word is a size of page like any other: the page is the whole tape. Of a tape
of 18 cells the line shows the first 16 or the last two. -/
theorem window_partitions_of_last_page :
    let t : Tape := { blank 18 .byte (by decide) with pointer := 17, pointer_lt := by decide }
    8 * t.size < 2 ^ 63 ∧
    (∃ base cells, t.windowInWords? (-1) = some (base, cells) ∧ base.toNat = 0 ∧
      cells.size = 18) ∧
    (Session.submit 0 false ":tape" (.ofTape t .collecting (.stream []))).map
      Session.Reply.shown = some "ptr=17 cells[16..18]: 0 [0]\n" := by
  intro t
  have allocated : 8 * t.size < 2 ^ 63 := by decide
  obtain ⟨words, -, -, lines⟩ := window_partitions allocated
  have length : t.size = 18 := rfl
  refine ⟨allocated, ?_, ?_⟩
  · obtain ⟨base, computed, -, page⟩ := words (-1)
    have most : max (-1 : UInt64).toNat 1 = 2 ^ 64 - 1 := rfl
    have base_le : base.toNat ≤ 17 := page.base_le
    have first : base.toNat = 0 :=
      Nat.eq_zero_of_dvd_of_lt page.aligned (by omega)
    refine ⟨base, _, computed, first, ?_⟩
    rw [page.size_eq, first, most, length]
    rfl
  · obtain ⟨base, before, after, page, here, -, shown, -⟩ :=
      lines 0 false (.ofTape t .collecting (.stream [])) rfl
    have aligned : 16 ∣ base := page.aligned
    have count := page.size_eq
    rw [List.size_toArray, List.length_append, List.length_cons, length,
      show max 16 1 = 16 from rfl] at count
    have pointer : t.pointer = 17 := rfl
    have last : base = 16 := by omega
    obtain ⟨cell, rfl⟩ : ∃ cell, before = [cell] := List.length_eq_one_iff.mp (by omega)
    obtain rfl : after = [] := List.eq_nil_of_length_eq_zero (by
      rw [List.length_singleton] at count
      omega)
    have zero := page.getElem?_eq 0 (by simp)
    rw [last] at zero
    obtain rfl : cell = 0 := Option.some.inj zero
    rw [shown, last]
    decide

end Tape

end RingTape
