import SqlScript.Text

/-!
# Texts in JSON

`encode` writes a text between quotation marks, with escapes for quotation marks, backslashes and
control characters. `readBody` reads any spelling of a text that JSON admits; a surrogate stands
for a character together with its partner only.

`skipBody` passes over a text that nobody asks for: its escapes are looked at one by one, so that a
surrogate may be alone in it.
-/

namespace SqlScript.Json

/-- A blank of JSON. -/
def isSpace (c : Char) : Bool := c == ' ' || c == '\n' || c == '\t' || c == '\r'

/-- The text without the blanks at its start. -/
def dropSpace (t : Text) : Text := t.dropWhile isSpace

theorem length_dropSpace_le (t : Text) : (dropSpace t).length ≤ t.length :=
  (List.dropWhile_sublist isSpace).length_le

/-- A character that is found behind blanks is taken from the text. -/
theorem length_lt_of_dropSpace {t r : Text} {c : Char} (h : dropSpace t = c :: r) :
    r.length < t.length := by
  have := length_dropSpace_le t
  rw [h, List.length_cons] at this
  omega

/-- The mark before and after a text. -/
def mark : Char := '\x22'

/-! ### Writing -/

/-- A character as it stands between quotation marks. -/
def escape (c : Char) : Text :=
  if c = mark then ['\\', mark]
  else if c = '\\' then ['\\', '\\']
  else if c = '\x08' then ['\\', 'b']
  else if c = '\x0c' then ['\\', 'f']
  else if c = '\n' then ['\\', 'n']
  else if c = '\r' then ['\\', 'r']
  else if c = '\t' then ['\\', 't']
  else if c.toNat < 0x20 then
    ['\\', 'u', '0', '0', Nat.digitChar (c.toNat / 16), Nat.digitChar (c.toNat % 16)]
  else [c]

/-- A text as it stands between quotation marks. -/
def encodeBody (t : Text) : Text := t.flatMap escape

/-- A text between quotation marks. -/
def encode (t : Text) : Text := mark :: (encodeBody t ++ [mark])

/-! ### Reading -/

/-- The value of a hexadecimal digit. -/
def hexValue? (c : Char) : Option Nat :=
  if '0' ≤ c ∧ c ≤ '9' then some (c.toNat - '0'.toNat)
  else if 'a' ≤ c ∧ c ≤ 'f' then some (c.toNat - 'a'.toNat + 10)
  else if 'A' ≤ c ∧ c ≤ 'F' then some (c.toNat - 'A'.toNat + 10)
  else none

/-- Reads four hexadecimal digits. -/
def readUnit : Text → Option (Nat × Text)
  | a :: b :: c :: d :: t => do
    let a ← hexValue? a
    let b ← hexValue? b
    let c ← hexValue? c
    let d ← hexValue? d
    return (((a * 16 + b) * 16 + c) * 16 + d, t)
  | _ => none

/-- Whether a code unit is the first half of a pair of surrogates. -/
def isLeading (u : Nat) : Bool := 0xd800 ≤ u && u < 0xdc00

/-- Whether a code unit is the second half of a pair of surrogates. -/
def isTrailing (u : Nat) : Bool := 0xdc00 ≤ u && u < 0xe000

/-- The character that a pair of surrogates stands for. -/
def pairedChar (u v : Nat) : Char := Char.ofNat (0x10000 + (u - 0xd800) * 0x400 + (v - 0xdc00))

/-- Reads the digits of a character, and those of the second half of a pair. -/
def readCoded (t : Text) : Option (Char × Text) :=
  match readUnit t with
  | none => none
  | some (u, r) =>
    if isTrailing u then none
    else if isLeading u then
      match r with
      | '\\' :: 'u' :: r =>
        match readUnit r with
        | none => none
        | some (v, r) => if isTrailing v then some (pairedChar u v, r) else none
      | _ => none
    else some (Char.ofNat u, r)

/-- The character that a backslash and one letter stand for. -/
def letterEscape? (c : Char) : Option Char :=
  if c = mark then some mark
  else if c = '\\' then some '\\'
  else if c = '/' then some '/'
  else if c = 'b' then some '\x08'
  else if c = 'f' then some '\x0c'
  else if c = 'n' then some '\n'
  else if c = 'r' then some '\r'
  else if c = 't' then some '\t'
  else none

/-- Reads what follows a backslash. -/
def readEscape : Text → Option (Char × Text)
  | [] => none
  | c :: t => if c = 'u' then readCoded t else (letterEscape? c).map fun c => (c, t)

/-- Passes over what follows a backslash. -/
def skipEscape : Text → Option Text
  | [] => none
  | c :: t =>
    if c = 'u' then (readUnit t).map (·.2) else (letterEscape? c).map fun _ => t

/-- A code unit takes its digits. -/
theorem length_lt_of_readUnit {t r : Text} {u : Nat} (h : readUnit t = some (u, r)) :
    r.length < t.length := by
  unfold readUnit at h
  split at h
  · next a b c d t' =>
    -- the unit is read only if all four characters are digits
    cases ha : hexValue? a <;> cases hb : hexValue? b <;> cases hc : hexValue? c <;>
      cases hd : hexValue? d <;>
      simp_all only [Option.bind_eq_bind, Option.bind_none, Option.bind_some, reduceCtorEq,
        pure, Option.some.injEq, Prod.mk.injEq]
    simp only [List.length_cons, ← h.2]
    omega
  · simp at h

/-- A character that is coded takes the digits of one code unit or of two. -/
theorem length_lt_of_readCoded {t r : Text} {c : Char} (h : readCoded t = some (c, r)) :
    r.length < t.length := by
  unfold readCoded at h
  split at h
  · simp at h
  · next u r' hu =>
    have := length_lt_of_readUnit hu
    split at h
    · simp at h
    split at h
    · split at h
      · next r'' =>
        split at h
        · simp at h
        · next v r''' hv =>
          have := length_lt_of_readUnit hv
          split at h
          · simp only [Option.some.injEq, Prod.mk.injEq] at h
            simp only [← h.2, List.length_cons] at *
            omega
          · simp at h
      · simp at h
    · simp only [Option.some.injEq, Prod.mk.injEq] at h
      rw [← h.2]
      exact this

/-- An escape takes at least one character behind its backslash. -/
theorem length_lt_of_readEscape {t r : Text} {c : Char} (h : readEscape t = some (c, r)) :
    r.length < t.length := by
  unfold readEscape at h
  split at h
  · simp at h
  · next x t' =>
    split at h
    · have := length_lt_of_readCoded h
      rw [List.length_cons]
      omega
    · obtain ⟨y, -, hy⟩ := Option.map_eq_some_iff.1 h
      simp only [Prod.mk.injEq] at hy
      simp [← hy.2]

theorem length_lt_of_skipEscape {t r : Text} (h : skipEscape t = some r) :
    r.length < t.length := by
  unfold skipEscape at h
  split at h
  · simp at h
  · next x t' =>
    split at h
    · obtain ⟨⟨u, r'⟩, hu, rfl⟩ := Option.map_eq_some_iff.1 h
      have := length_lt_of_readUnit hu
      simp only [List.length_cons]
      omega
    · obtain ⟨y, -, rfl⟩ := Option.map_eq_some_iff.1 h
      simp

/-- Reads a text up to its closing mark. A control character must be escaped. -/
def readBody (t : Text) : Option (Text × Text) :=
  match t with
  | [] => none
  | c :: t =>
    if c = mark then some ([], t)
    else if c = '\\' then
      match _h : readEscape t with
      | none => none
      | some (c, r) => (readBody r).map fun (s, r) => (c :: s, r)
    else if c.toNat < 0x20 then none
    else (readBody t).map fun (s, r) => (c :: s, r)
termination_by t.length
decreasing_by
  · have := length_lt_of_readEscape _h
    rw [List.length_cons]
    omega
  · simp

/-- Passes over a text up to its closing mark. -/
def skipBody (t : Text) : Option Text :=
  match t with
  | [] => none
  | c :: t =>
    if c = mark then some t
    else if c = '\\' then
      match _h : skipEscape t with
      | none => none
      | some r => skipBody r
    else if c.toNat < 0x20 then none
    else skipBody t
termination_by t.length
decreasing_by
  · have := length_lt_of_skipEscape _h
    rw [List.length_cons]
    omega
  · simp

/-- A text takes at least its closing mark. -/
theorem length_lt_of_readBody {t s r : Text} (h : readBody t = some (s, r)) :
    r.length < t.length := by
  fun_induction readBody t generalizing s r with
  | case1 => simp at h
  | case2 t =>
    simp only [Option.some.injEq, Prod.mk.injEq] at h
    simp [← h.2]
  | case3 => simp at h
  | case4 t c' r' he hm ih =>
    obtain ⟨⟨s', r''⟩, hr, hs⟩ := Option.map_eq_some_iff.1 h
    simp only [Prod.mk.injEq] at hs
    have := ih hr
    have := length_lt_of_readEscape he
    simp only [← hs.2, List.length_cons]
    omega
  | case5 => simp at h
  | case6 c t hc hb hn ih =>
    obtain ⟨⟨s', r''⟩, hr, hs⟩ := Option.map_eq_some_iff.1 h
    simp only [Prod.mk.injEq] at hs
    have := ih hr
    simp only [← hs.2, List.length_cons]
    omega

theorem length_lt_of_skipBody {t r : Text} (h : skipBody t = some r) : r.length < t.length := by
  fun_induction skipBody t with
  | case1 => simp at h
  | case2 t =>
    simp only [Option.some.injEq] at h
    simp [← h]
  | case3 => simp at h
  | case4 t r' he hm ih =>
    have := ih h
    have := length_lt_of_skipEscape he
    rw [List.length_cons]
    omega
  | case5 => simp at h
  | case6 c t hc hb hn ih =>
    have := ih h
    rw [List.length_cons]
    omega

end SqlScript.Json
