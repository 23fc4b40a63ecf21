/-
# Parts of a text

A text is a sequence of characters and a sequence of bytes, and a character has one byte to
four. Places in a text are counted in characters, but it is cut in bytes, and it can be cut
only between two characters. The places of characters are such places, so cutting from one
character to a later one always succeeds.
-/

namespace RingTape.Text

/-- The offsets in bytes at which the characters of a text start, counted on from `offset`. -/
def charOffsets : (offset : Nat) → List Char → List Nat
  | _, [] => []
  | offset, c :: rest => offset :: charOffsets (offset + c.utf8Size) rest

/-- The offset at which the character with an index starts; if there is no such character,
the end of the text. -/
def byteIndex (text : String) (index : Nat) : Nat :=
  (charOffsets 0 text.toList)[index]?.getD text.utf8ByteSize

/-- The part of a text from one offset to another. There is none if the first is behind the
second, or if one of them is inside a character or behind the text. -/
def slice? (text : String) (start stop : Nat) : Option String :=
  if valid : start ≤ stop ∧ (String.Pos.Raw.mk start).IsValid text ∧
      (String.Pos.Raw.mk stop).IsValid text then
    some (text.extract (text.pos ⟨start⟩ valid.2.1) (text.pos ⟨stop⟩ valid.2.2))
  else none

/-- What can be cut out lies between two places that are in order and not inside a
character. -/
theorem valid_of_slice? {text part : String} {start stop : Nat}
    (cut : slice? text start stop = some part) :
    start ≤ stop ∧ (String.Pos.Raw.mk start).IsValid text ∧
      (String.Pos.Raw.mk stop).IsValid text := by
  unfold slice? at cut
  split at cut
  · next valid => exact valid
  · cases cut

/-- At the start of a character as many bytes are counted as the characters before it have. -/
theorem getD_charOffsets (offset : Nat) (cs : List Char) (index : Nat) :
    (charOffsets offset cs)[index]?.getD (offset + (String.ofList cs).utf8ByteSize) =
      offset + (String.ofList (cs.take index)).utf8ByteSize := by
  induction cs generalizing offset index with
  | nil => simp [charOffsets]
  | cons c rest ih =>
    have size (others : List Char) : (String.ofList (c :: others)).utf8ByteSize =
        c.utf8Size + (String.ofList others).utf8ByteSize := by
      rw [← List.singleton_append, String.ofList_append, String.utf8ByteSize_append,
        ← String.singleton_eq_ofList, String.utf8ByteSize_singleton]
    cases index with
    | zero => simp [charOffsets]
    | succ index =>
      rw [charOffsets, List.getElem?_cons_succ, List.take_succ_cons, size, size, ← Nat.add_assoc,
        ← Nat.add_assoc, ih]

theorem byteIndex_eq (text : String) (index : Nat) :
    byteIndex text index = (String.ofList (text.toList.take index)).utf8ByteSize := by
  have counted := getD_charOffsets 0 text.toList index
  rwa [Nat.zero_add, Nat.zero_add, String.ofList_toList] at counted

/-- All places behind the last character are the end of the text. -/
theorem byteIndex_min_length (text : String) (index : Nat) :
    byteIndex text (min index text.length) = byteIndex text index := by
  rw [byteIndex_eq, byteIndex_eq, ← String.length_toList, ← List.take_eq_take_min]

/-- A text can be cut where the texts meet that it is put together from. -/
theorem slice?_append (before part after : String) :
    slice? (before ++ part ++ after) before.utf8ByteSize (before ++ part).utf8ByteSize =
      some part := by
  have valid (first second : String) :
      (String.Pos.Raw.mk first.utf8ByteSize).IsValid (first ++ second) :=
    String.Pos.Raw.isValid_iff_exists_append.mpr ⟨first, second, rfl, rfl⟩
  have ordered : before.utf8ByteSize ≤ (before ++ part).utf8ByteSize := by
    rw [String.utf8ByteSize_append]
    exact Nat.le_add_right _ _
  have valid_start := valid before (part ++ after)
  rw [← String.append_assoc] at valid_start
  have bytes : (before ++ part ++ after).toByteArray.extract before.utf8ByteSize
      (before ++ part).utf8ByteSize = part.toByteArray := by
    rw [String.toByteArray_append, ← String.size_toByteArray, ← String.size_toByteArray,
      ByteArray.extract_append_size_left, String.toByteArray_append,
      ByteArray.extract_append_eq_right rfl ByteArray.size_append]
  rw [slice?, dif_pos ⟨ordered, valid_start, valid (before ++ part) after⟩]
  exact congrArg some (String.toByteArray_inj.mp bytes)

/-- Cutting from the place of one character to that of a later one succeeds, with the
characters in between. -/
theorem slice?_byteIndex (text : String) {start stop : Nat} (ordered : start ≤ stop) :
    slice? text (byteIndex text start) (byteIndex text stop) =
      some (String.ofList ((text.toList.take stop).drop start)) := by
  let before := String.ofList (text.toList.take start)
  let part := String.ofList ((text.toList.take stop).drop start)
  have upto : before ++ part = String.ofList (text.toList.take stop) := by
    have first : (text.toList.take stop).take start = text.toList.take start := by
      rw [List.take_take, Nat.min_eq_left ordered]
    rw [← String.ofList_append, ← first, List.take_append_drop]
  have whole : before ++ part ++ String.ofList (text.toList.drop stop) = text := by
    rw [upto, ← String.ofList_append, List.take_append_drop, String.ofList_toList]
  have cut := slice?_append before part (String.ofList (text.toList.drop stop))
  rwa [whole, upto, ← byteIndex_eq, ← byteIndex_eq] at cut

/-- A character of two bytes counts once, and there is no place inside it. -/
example : byteIndex "é+" 1 = 2 ∧ byteIndex "é+" 5 = 3 ∧ slice? "é+" 1 3 = none := by decide

end RingTape.Text
