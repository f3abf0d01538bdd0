/-!
# Texts as bytes

The bytes that a text is stored as, in the UTF-8 encoding, and the text that a sequence of bytes
stands for. Not every sequence of bytes stands for a text.
-/

namespace ManagedLayout.Text

/-- The bytes of a text. -/
def utf8 (text : String) : List UInt8 := text.toUTF8.data.toList

/-- The text whose bytes are given; none if they are those of no text. -/
def ofUtf8? (bytes : List UInt8) : Option String := String.fromUTF8? ⟨bytes.toArray⟩

@[simp] theorem ofUtf8?_utf8 (text : String) : ofUtf8? (utf8 text) = some text := by
  have valid : text.toUTF8.IsValidUTF8 := text.isValidUTF8
  simp only [ofUtf8?, utf8, Array.toArray_toList, String.fromUTF8?]
  exact dif_pos valid

/-- The only bytes that stand for a text are its own. -/
theorem ofUtf8?_eq_some_iff {bytes : List UInt8} {text : String} :
    ofUtf8? bytes = some text ↔ bytes = utf8 text := by
  constructor
  · intro read
    simp only [ofUtf8?, String.fromUTF8?] at read
    split at read
    next =>
      obtain rfl := Option.some.inj read
      rfl
    next => cases read
  · rintro rfl
    exact ofUtf8?_utf8 text

theorem length_utf8 (text : String) : (utf8 text).length = text.utf8ByteSize := by
  simp [utf8]

end ManagedLayout.Text
