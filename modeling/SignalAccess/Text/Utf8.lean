import SignalAccess.Text.Basic
/-!
# Texts as bytes

A text travels as its UTF-8 bytes. Reading refuses every byte sequence that is not the encoding of
some text: stray or missing continuation bytes, overlong forms, surrogates and codes above the last
character.
-/
namespace SignalAccess

/-- A run of bytes, as it stands on the wire or in a file. -/
abbrev Bytes := List UInt8

namespace Text

/-- The UTF-8 bytes of a text. -/
def utf8 (t : Text) : Bytes := t.flatMap String.utf8EncodeChar

/-- The text whose UTF-8 bytes are given, if there is one. -/
def ofUtf8? (bytes : Bytes) : Option Text :=
  (ByteArray.utf8Decode? ⟨bytes.toArray⟩).map Array.toList

/-- A text is written in as many bytes as are counted for its characters. -/
theorem length_utf8 (t : Text) : t.utf8.length = t.byteLength := by
  induction t with
  | nil => rfl
  | cons c t inductionHypothesis =>
    rw [utf8] at inductionHypothesis
    simp [utf8, inductionHypothesis]

/-- The bytes of a text are those that the core library encodes it in. -/
theorem utf8_toByteArray (t : Text) : (⟨t.utf8.toArray⟩ : ByteArray) = List.utf8Encode t := by
  apply ByteArray.ext
  simp [utf8, List.utf8Encode]

/-- A text is read back from its bytes. -/
theorem ofUtf8?_utf8 (t : Text) : ofUtf8? t.utf8 = some t := by
  rw [ofUtf8?, utf8_toByteArray, List.utf8Decode?_utf8Encode]
  rfl

/-- Bytes are those of the text that is read from them. -/
theorem utf8_of_ofUtf8? {bytes : Bytes} {t : Text} (found : ofUtf8? bytes = some t) :
    t.utf8 = bytes := by
  obtain ⟨characters, decoded, rfl⟩ := Option.map_eq_some_iff.1 found
  have present : (ByteArray.utf8Decode? ⟨bytes.toArray⟩).isSome := by simp [decoded]
  have encoded := ByteArray.utf8Encode_get_utf8Decode? (h := present)
  simp only [decoded, Option.get_some] at encoded
  have same := (utf8_toByteArray characters.toList).trans encoded
  simpa using congrArg ByteArray.data same

end Text

end SignalAccess
