import SqlScript.Text

/-!
# Texts and bytes

`Text.utf8` writes a text in UTF-8, and `Text.ofUtf8` reads as many characters as the bytes spell.
Reading gives back what was written (`ofUtf8_utf8`).
-/

namespace SqlScript

/-- Bytes, in order. -/
abbrev Bytes := List UInt8

namespace Text

/-- The bytes of a text in UTF-8. -/
def utf8 (t : Text) : Bytes := t.flatMap String.utf8EncodeChar

@[simp] theorem utf8_nil : utf8 [] = [] := rfl

@[simp] theorem utf8_cons (c : Char) (t : Text) :
    utf8 (c :: t) = String.utf8EncodeChar c ++ utf8 t := rfl

theorem length_utf8 (t : Text) : (utf8 t).length = byteLen t := by
  induction t with
  | nil => rfl
  | cons c t ih => simp [String.length_utf8EncodeChar, ih]

/-- The character that the bytes start with. -/
def firstChar? (bytes : Bytes) : Option Char := (bytes.take 4).toByteArray.utf8DecodeChar? 0

theorem firstChar?_append (c : Char) (bytes : Bytes) :
    firstChar? (String.utf8EncodeChar c ++ bytes) = some c := by
  have h : (String.utf8EncodeChar c).length ≤ 4 := by
    rw [String.length_utf8EncodeChar]
    exact c.utf8Size_le_four
  rw [firstChar?, List.take_append, List.take_of_length_le h, List.toByteArray_append,
    ByteArray.utf8DecodeChar?_utf8EncodeChar_append]

theorem utf8Size_le_of_firstChar? {c : Char} {bytes : Bytes} (h : firstChar? bytes = some c) :
    c.utf8Size ≤ bytes.length := by
  have := ByteArray.le_size_of_utf8DecodeChar?_eq_some h
  rw [List.size_toByteArray, List.length_take] at this
  omega

/-- The characters that the bytes spell, up to the first place where they spell none. -/
def ofUtf8 (bytes : Bytes) : Text :=
  match _h : firstChar? bytes with
  | none => []
  | some c => c :: ofUtf8 (bytes.drop c.utf8Size)
termination_by bytes.length
decreasing_by
  have := utf8Size_le_of_firstChar? _h
  have := c.utf8Size_pos
  rw [List.length_drop]
  omega

/-- Reading gives back what was written. -/
theorem ofUtf8_utf8 (t : Text) : ofUtf8 (utf8 t) = t := by
  induction t with
  | nil => rw [ofUtf8]; rfl
  | cons c t ih =>
    rw [utf8_cons, ofUtf8]
    split
    · next h => simp [firstChar?_append] at h
    · next c' h =>
      rw [firstChar?_append, Option.some.injEq] at h
      subst h
      rw [List.drop_left' (String.length_utf8EncodeChar c), ih]

end Text

end SqlScript
