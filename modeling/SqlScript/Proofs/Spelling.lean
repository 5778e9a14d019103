import Mathlib.Tactic.SplitIfs
import SqlScript.Json.Quoted

/-!
# Spellings of a text

JSON has many ways to write one text. A character may stand for itself, behind a backslash as a
letter, or as the number of its code unit or of its two surrogates, with digits in either case.
`Json.SpellsChar` lists these ways, and `Json.Spells` puts them together to texts.

* `readBody_spells`: reading takes every spelling for the text that it spells, and stops behind the
  closing mark.
* `spells_encodeBody`: what is written is a spelling.

`Json.Quoted` adds the marks.

`Json.Quotable` is wider: it asks only that escapes have the right form, so that a surrogate may be
alone. Such texts are passed over (`skipBody_quotable`).
-/

namespace SqlScript.Json

/-! ### Blanks -/

/-- Any number of blanks. -/
def Spaces (s : Text) : Prop := ∀ c ∈ s, isSpace c = true

variable {c d : Char} {k n : Nat} {r s t u : Text}

theorem spaces_nil : Spaces [] := by simp [Spaces]

theorem dropSpace_append (hs : Spaces s) (t : Text) : dropSpace (s ++ t) = dropSpace t :=
  List.dropWhile_append_of_pos hs

theorem dropSpace_cons (hc : isSpace c = false) (t : Text) : dropSpace (c :: t) = c :: t :=
  List.dropWhile_cons_of_neg (by simp [hc])

/-- Blanks are dropped up to the first other character. -/
theorem dropSpace_append_cons (hs : Spaces s) (hc : isSpace c = false) (t : Text) :
    dropSpace (s ++ c :: t) = c :: t := by
  rw [dropSpace_append hs, dropSpace_cons hc]

theorem dropSpace_spaces (hs : Spaces s) : dropSpace s = [] := by
  have h := dropSpace_append hs []
  rwa [List.append_nil] at h

/-! ### Code units -/

/-- A hexadecimal digit, in either case. -/
def HexDigit (n : Nat) (c : Char) : Prop :=
  n < 16 ∧ (c = Nat.digitChar n ∨ c = (Nat.digitChar n).toUpper)

/-- A code unit in four hexadecimal digits. -/
inductive CodeUnit (n : Nat) : Text → Prop
  /-- The digits of the number in base 16, the first one the most significant. -/
  | digits {a b c d : Char} (ha : HexDigit (n / 0x1000) a) (hb : HexDigit (n / 0x100 % 16) b)
      (hc : HexDigit (n / 16 % 16) c) (hd : HexDigit (n % 16) d) : CodeUnit n [a, b, c, d]

theorem hexValue?_hexDigit (h : HexDigit n c) : hexValue? c = some n := by
  -- there are sixteen digits in two cases
  have hall : ∀ m < 16, hexValue? (Nat.digitChar m) = some m ∧
      hexValue? (Nat.digitChar m).toUpper = some m := by decide
  obtain ⟨hn, rfl | rfl⟩ := h
  · exact (hall n hn).1
  · exact (hall n hn).2

theorem readUnit_codeUnit (h : CodeUnit n u) (r : Text) : readUnit (u ++ r) = some (n, r) := by
  obtain ⟨ha, hb, hc, hd⟩ := h
  have hn : ((n / 0x1000 * 16 + n / 0x100 % 16) * 16 + n / 16 % 16) * 16 + n % 16 = n := by omega
  simp [readUnit, hexValue?_hexDigit ha, hexValue?_hexDigit hb, hexValue?_hexDigit hc,
    hexValue?_hexDigit hd, hn]

/-- The number of a character is no surrogate. -/
theorem toNat_lt_or_lt (c : Char) : c.toNat < 0xd800 ∨ 0xdfff < c.toNat ∧ c.toNat < 0x110000 :=
  c.valid

/-! ### Characters -/

/-- The letters behind a backslash, and the characters that they stand for. -/
def letterEscapes : List (Char × Char) :=
  [(mark, mark), ('\\', '\\'), ('/', '/'), ('b', '\x08'), ('f', '\x0c'), ('n', '\n'), ('r', '\r'),
    ('t', '\t')]

/-- The ways to write a character between quotation marks. -/
inductive SpellsChar : Text → Char → Prop
  /-- A character by itself. Marks, backslashes and controls cannot stand so. -/
  | plain {c : Char} (hmark : c ≠ mark) (hescape : c ≠ '\\') (hcontrol : 0x20 ≤ c.toNat) :
      SpellsChar [c] c
  /-- A backslash and a letter. -/
  | letter {x c : Char} (h : (x, c) ∈ letterEscapes) : SpellsChar ['\\', x] c
  /-- A backslash and the digits of a code unit. -/
  | unit {c : Char} {u : Text} (hu : CodeUnit c.toNat u) : SpellsChar ('\\' :: 'u' :: u) c
  /-- The digits of two surrogates, for a character beyond the first plane. -/
  | pair {c : Char} {u v : Text} (hc : 0x10000 ≤ c.toNat)
      (hu : CodeUnit (0xd800 + (c.toNat - 0x10000) / 0x400) u)
      (hv : CodeUnit (0xdc00 + (c.toNat - 0x10000) % 0x400) v) :
      SpellsChar ('\\' :: 'u' :: (u ++ '\\' :: 'u' :: v)) c

/-- Each letter stands for its character, and none of them announces a code unit. -/
theorem letterEscape?_of_mem (h : (d, c) ∈ letterEscapes) : d ≠ 'u' ∧ letterEscape? d = some c := by
  have hall : ∀ p ∈ letterEscapes, p.1 ≠ 'u' ∧ letterEscape? p.1 = some p.2 := by decide
  exact hall (d, c) h

/-- A letter behind a backslash is read for its character. -/
theorem readEscape_letter (h : (d, c) ∈ letterEscapes) (r : Text) :
    readEscape (d :: r) = some (c, r) := by
  obtain ⟨hne, hd⟩ := letterEscape?_of_mem h
  simp [readEscape, hne, hd]

/-- A code unit is read for its character, since the number of a character is no surrogate. -/
theorem readEscape_unit (hu : CodeUnit c.toNat u) (r : Text) :
    readEscape ('u' :: (u ++ r)) = some (c, r) := by
  have hc := toNat_lt_or_lt c
  have hleading : isLeading c.toNat = false := by
    simp only [isLeading, Bool.and_eq_false_iff, decide_eq_false_iff_not]
    omega
  have htrailing : isTrailing c.toNat = false := by
    simp only [isTrailing, Bool.and_eq_false_iff, decide_eq_false_iff_not]
    omega
  simp [readEscape, readCoded, readUnit_codeUnit hu, hleading, htrailing, Char.ofNat_toNat]

/-- The two surrogates of a character stand for it. -/
theorem pairedChar_surrogates (hc : 0x10000 ≤ c.toNat) :
    pairedChar (0xd800 + (c.toNat - 0x10000) / 0x400)
      (0xdc00 + (c.toNat - 0x10000) % 0x400) = c := by
  have hn : 0x10000 + (0xd800 + (c.toNat - 0x10000) / 0x400 - 0xd800) * 0x400 +
      (0xdc00 + (c.toNat - 0x10000) % 0x400 - 0xdc00) = c.toNat := by omega
  rw [pairedChar, hn, Char.ofNat_toNat]

/-- A pair of surrogates is read for its character. -/
theorem readEscape_pair {v : Text} (hc : 0x10000 ≤ c.toNat)
    (hu : CodeUnit (0xd800 + (c.toNat - 0x10000) / 0x400) u)
    (hv : CodeUnit (0xdc00 + (c.toNat - 0x10000) % 0x400) v) (r : Text) :
    readEscape ('u' :: (u ++ '\\' :: 'u' :: (v ++ r))) = some (c, r) := by
  have hmax := toNat_lt_or_lt c
  -- the first half is below the second halves, and the second half is one of them
  have hfirst : isTrailing (0xd800 + (c.toNat - 0x10000) / 0x400) = false ∧
      isLeading (0xd800 + (c.toNat - 0x10000) / 0x400) = true := by
    simp only [isTrailing, isLeading, Bool.and_eq_false_iff, Bool.and_eq_true,
      decide_eq_false_iff_not, decide_eq_true_eq]
    omega
  have hsecond : isTrailing (0xdc00 + (c.toNat - 0x10000) % 0x400) = true := by
    simp only [isTrailing, Bool.and_eq_true, decide_eq_true_eq]
    omega
  simp [readEscape, readCoded, readUnit_codeUnit hu, readUnit_codeUnit hv, hfirst, hsecond,
    pairedChar_surrogates hc]

theorem readBody_cons_of_readEscape (h : readEscape t = some (c, r)) :
    readBody ('\\' :: t) = (readBody r).map fun (s, r) => (c :: s, r) := by
  rw [readBody, if_neg (by decide), if_pos rfl]
  split
  · next h' => rw [h] at h'; cases h'
  · next c' r' h' =>
    rw [h] at h'
    obtain ⟨rfl, rfl⟩ := Prod.mk.inj (Option.some.inj h')
    rfl

/-- Reading takes a character for what it is, however it is spelled. -/
theorem readBody_spellsChar (h : SpellsChar u c) (r : Text) :
    readBody (u ++ r) = (readBody r).map fun (s, r) => (c :: s, r) := by
  cases h with
  | plain hmark hescape hcontrol =>
    rw [List.singleton_append, readBody, if_neg hmark, if_neg hescape, if_neg (by omega)]
  | letter h => exact readBody_cons_of_readEscape (readEscape_letter h r)
  | unit hu => exact readBody_cons_of_readEscape (readEscape_unit hu r)
  | pair hc hu hv =>
    rw [List.cons_append, List.cons_append, List.append_assoc, List.cons_append, List.cons_append]
    exact readBody_cons_of_readEscape (readEscape_pair hc hu hv r)

/-! ### Texts -/

/-- The ways to write a text between quotation marks, character by character. -/
inductive Spells : Text → Text → Prop
  /-- No characters. -/
  | nil : Spells [] []
  /-- A spelling of the first character, and one of the others. -/
  | cons {c : Char} {s t u : Text} (hu : SpellsChar u c) (ht : Spells t s) :
      Spells (u ++ t) (c :: s)

/-- Reading takes a text for what it is, however it is spelled. -/
theorem readBody_spells (h : Spells t s) (r : Text) :
    readBody (t ++ mark :: r) = some (s, r) := by
  induction h with
  | nil => rw [List.nil_append, readBody, if_pos rfl]
  | cons hu ht ih =>
    rw [List.append_assoc, readBody_spellsChar hu, ih]
    rfl

/-- A spelling of a text between quotation marks, with blanks before it. -/
inductive Quoted (s : Text) : Text → Prop
  /-- Blanks, a mark, a spelling and a mark. -/
  | marks {w t : Text} (hw : Spaces w) (ht : Spells t s) : Quoted s (w ++ mark :: (t ++ [mark]))

/-- A quoted text starts with a mark behind its blanks, and is read from there. -/
theorem Quoted.exists_dropSpace (h : Quoted s t) (r : Text) :
    ∃ u, dropSpace (t ++ r) = mark :: u ∧ readBody u = some (s, r) := by
  cases h with
  | @marks w t hw ht =>
    refine ⟨t ++ mark :: r, ?_, readBody_spells ht r⟩
    rw [List.append_assoc, List.cons_append, List.append_assoc, List.singleton_append,
      dropSpace_append_cons hw rfl]

/-- What is written for a character is a spelling of it. -/
theorem spellsChar_escape (c : Char) : SpellsChar (escape c) c := by
  unfold escape
  split_ifs with hmark hescape hb hf hn hr ht hcontrol
  -- the characters that have a letter
  · subst hmark; exact .letter (by decide)
  · subst hescape; exact .letter (by decide)
  · subst hb; exact .letter (by decide)
  · subst hf; exact .letter (by decide)
  · subst hn; exact .letter (by decide)
  · subst hr; exact .letter (by decide)
  · subst ht; exact .letter (by decide)
  · -- another control character is below 32, so that two of its four digits are zero
    have hzero : HexDigit 0 '0' := ⟨by decide, Or.inl rfl⟩
    refine .unit (.digits ?_ ?_ ?_ ?_)
    · rwa [Nat.div_eq_of_lt (by omega)]
    · rwa [Nat.div_eq_of_lt (by omega)]
    · rw [Nat.mod_eq_of_lt (by omega)]
      exact ⟨by omega, Or.inl rfl⟩
    · exact ⟨by omega, Or.inl rfl⟩
  · -- any other character stands for itself
    exact .plain hmark hescape (by omega)

/-- What is written for a text is a spelling of it. -/
theorem spells_encodeBody (s : Text) : Spells (encodeBody s) s := by
  induction s with
  | nil => exact .nil
  | cons c s ih =>
    rw [encodeBody, List.flatMap_cons]
    exact .cons (spellsChar_escape c) ih

theorem quoted_encode (s : Text) : Quoted s (encode s) :=
  .marks (w := []) spaces_nil (spells_encodeBody s)

/-! ### Texts that nobody asks for -/

/-- What may stand between quotation marks if only the form of escapes counts. -/
inductive Quotable : Text → Prop
  /-- Nothing. -/
  | nil : Quotable []
  /-- A character by itself, and others. -/
  | plain {c : Char} {t : Text} (hmark : c ≠ mark) (hescape : c ≠ '\\')
      (hcontrol : 0x20 ≤ c.toNat) (ht : Quotable t) : Quotable (c :: t)
  /-- A backslash and a letter, and others. -/
  | letter {x c : Char} {t : Text} (h : (x, c) ∈ letterEscapes) (ht : Quotable t) :
      Quotable ('\\' :: x :: t)
  /-- A backslash and any code unit, be it half of a pair, and others. -/
  | unit {n : Nat} {u t : Text} (hu : CodeUnit n u) (ht : Quotable t) :
      Quotable ('\\' :: 'u' :: (u ++ t))

theorem skipBody_cons_of_skipEscape (h : skipEscape t = some r) :
    skipBody ('\\' :: t) = skipBody r := by
  rw [skipBody, if_neg (by decide), if_pos rfl]
  split
  · next h' => rw [h] at h'; cases h'
  · next r' h' =>
    rw [h] at h'
    obtain rfl := Option.some.inj h'
    rfl

/-- A text is passed over up to its closing mark. -/
theorem skipBody_quotable (h : Quotable t) (r : Text) : skipBody (t ++ mark :: r) = some r := by
  induction h with
  | nil => rw [List.nil_append, skipBody, if_pos rfl]
  | plain hmark hescape hcontrol ht ih =>
    rw [List.cons_append, skipBody, if_neg hmark, if_neg hescape, if_neg (by omega), ih]
  | letter h ht ih =>
    obtain ⟨hne, hx⟩ := letterEscape?_of_mem h
    rw [List.cons_append, List.cons_append, skipBody_cons_of_skipEscape, ih]
    simp [skipEscape, hne, hx]
  | unit hu ht ih =>
    rw [List.cons_append, List.cons_append, List.append_assoc, skipBody_cons_of_skipEscape, ih]
    simp [skipEscape, readUnit_codeUnit hu]

end SqlScript.Json
