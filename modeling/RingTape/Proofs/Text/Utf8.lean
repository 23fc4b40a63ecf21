/-
# Encoding and decoding

Every text is decoded from its own bytes, and the bytes of two texts are one after the
other in those of both together. The ASCII characters are encoded as the one byte that has
their code point as its value.
-/

import RingTape.Text.Utf8

namespace RingTape.Utf8

/-- Decoding undoes encoding. -/
@[simp] theorem decode?_encode (text : String) : decode? (encode text) = some text := by
  have valid : text.toByteArray.IsValidUTF8 := text.isValidUTF8
  show String.fromUTF8? ⟨text.toByteArray.data.toList.toArray⟩ = some text
  rw [Array.toArray_toList, String.fromUTF8?, dif_pos valid]
  rfl

/-- What was decoded is the encoding of a text. -/
theorem encode_of_decode? {bytes : List UInt8} {text : String} (decoded : decode? bytes = some text) :
    encode text = bytes := by
  rw [decode?, String.fromUTF8?] at decoded
  split at decoded
  · cases decoded
    exact List.toList_toArray
  · cases decoded

/-- What could not be decoded is that of none. -/
theorem encode_ne_of_decode? {bytes : List UInt8} (invalid : decode? bytes = none) (text : String) :
    encode text ≠ bytes := by
  rintro rfl
  rw [decode?_encode] at invalid
  cases invalid

theorem encode_append (first second : String) :
    encode (first ++ second) = encode first ++ encode second := by
  rw [encode, encode, encode, String.toUTF8_eq_toByteArray, String.toUTF8_eq_toByteArray,
    String.toUTF8_eq_toByteArray, String.toByteArray_append, ByteArray.data_append,
    Array.toList_append]

theorem encode_ofList (cs : List Char) :
    encode (String.ofList cs) = cs.flatMap String.utf8EncodeChar := by
  rw [encode, String.toUTF8_eq_toByteArray, String.toByteArray_ofList, List.utf8Encode]
  simp

/-- ASCII characters have one byte each. -/
theorem encode_ofList_ascii {cs : List Char} (ascii : ∀ c ∈ cs, c.toNat < 0x80) :
    encode (String.ofList cs) = cs.map fun c => UInt8.ofNat c.toNat := by
  rw [encode_ofList]
  induction cs with
  | nil => rfl
  | cons c rest ih =>
    have one : c.utf8Size = 1 := Char.utf8Size_eq_one_iff.mpr
      (Nat.le_of_lt_succ (ascii c List.mem_cons_self))
    rw [List.flatMap_cons, String.utf8EncodeChar_eq_singleton one,
      ih fun other member => ascii other (List.mem_cons_of_mem c member)]
    rfl

end RingTape.Utf8
