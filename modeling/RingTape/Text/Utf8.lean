/-
# Texts as bytes

Channels to the outside carry bytes. Every text has exactly one encoding, and
decoding is strict: overlong forms, surrogates, code points past U+10FFFF and
sequences that are cut short are refused.
-/

namespace RingTape.Utf8

/-- The bytes of a text. -/
def encode (s : String) : List UInt8 := s.toUTF8.data.toList

/-- The text with the given bytes, if they are the encoding of one. -/
def decode? (bytes : List UInt8) : Option String := String.fromUTF8? ⟨bytes.toArray⟩

end RingTape.Utf8
