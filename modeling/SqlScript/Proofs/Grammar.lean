import SqlScript.Json.Value
import SqlScript.Proofs.Spelling

/-!
# The grammar of JSON values

`Json.Written` is the grammar of JSON: which texts are values, and which are the items between two
brackets. It says nothing about what the values are, so that numbers may be of any size and texts
need only be `Quotable`.

A value is passed over to its end, whatever stands in it (`skipValue_written`). Something must show
where it ends, because more digits would belong to a number: what follows starts with a blank, a
comma or a closing bracket, if there is anything (`Follows`).
-/

namespace SqlScript.Json

variable {b : Bracket} {c : Char} {l r s t u : Text}

/-! ### Numbers -/

/-- Decimal digits, at least one. -/
def Digits (ds : Text) : Prop := ds ≠ [] ∧ ∀ c ∈ ds, c.isDigit = true

/-- A point and digits, or nothing. -/
inductive Fraction : Text → Prop
  /-- No point. -/
  | absent : Fraction []
  /-- A point and digits. -/
  | point {ds : Text} (hds : Digits ds) : Fraction ('.' :: ds)

/-- An exponent with or without a sign, or nothing. -/
inductive Exponent : Text → Prop
  /-- No exponent. -/
  | absent : Exponent []
  /-- A letter, a sign if there is one, and digits. -/
  | scale {e : Char} {sign ds : Text} (he : e = 'e' ∨ e = 'E')
      (hsign : sign = [] ∨ sign = ['+'] ∨ sign = ['-']) (hds : Digits ds) :
      Exponent (e :: (sign ++ ds))

/-- A number. Only a zero that is alone may stand at the start of its digits. -/
inductive Numeral : Text → Prop
  /-- A minus sign if there is one, the digits before the point, the fraction and the exponent. -/
  | parts {sign ds f e : Text} (hsign : sign = [] ∨ sign = ['-']) (hds : Digits ds)
      (hzero : ds.head? = some '0' → ds = ['0']) (hf : Fraction f) (he : Exponent e) :
      Numeral (sign ++ (ds ++ (f ++ e)))

/-- The end of the text, or a character that ends a value. -/
def Follows (r : Text) : Prop := ∀ c ∈ r.head?, c ∈ [' ', '\n', '\t', '\r', ',', ']', '\x7d']

theorem follows_cons (h : c ∈ [' ', '\n', '\t', '\r', ',', ']', '\x7d']) (r : Text) :
    Follows (c :: r) := by
  simpa [Follows] using h

theorem mem_spaces_of_isSpace (h : isSpace c = true) : c ∈ [' ', '\n', '\t', '\r'] := by
  simpa [isSpace, or_assoc] using h

/-- Blanks before it still end the value. -/
theorem Follows.append (h : Follows r) (hs : Spaces s) : Follows (s ++ r) := by
  cases s with
  | nil => exact h
  | cons c s =>
    have hc := mem_spaces_of_isSpace (hs c List.mem_cons_self)
    exact follows_cons (List.mem_append_left [',', ']', '\x7d'] hc) _

/-- What ends a value goes on no number. -/
theorem Follows.head?_ne (h : Follows r) :
    ∀ c ∈ r.head?, c.isDigit = false ∧ c ≠ '.' ∧ c ≠ 'e' ∧ c ≠ 'E' := by
  have hall : [' ', '\n', '\t', '\r', ',', ']', '\x7d'].all fun c =>
      decide (c.isDigit = false ∧ c ≠ '.' ∧ c ≠ 'e' ∧ c ≠ 'E') := by decide
  exact fun c hc => of_decide_eq_true (List.all_eq_true.1 hall c (h c hc))

/-- Digits are read up to the first character that is none. -/
theorem readDigits_digits (hds : Digits t) (hr : ∀ c ∈ r.head?, c.isDigit = false) :
    readDigits (t ++ r) = (t.map digitValue, r) := by
  have htake : r.takeWhile Char.isDigit = [] ∧ r.dropWhile Char.isDigit = r := by
    cases r with
    | nil => exact ⟨rfl, rfl⟩
    | cons c r => simp [hr c rfl]
  rw [readDigits, List.takeWhile_append_of_pos hds.2, List.dropWhile_append_of_pos hds.2, htake.1,
    htake.2, List.append_nil]

theorem ne_of_isDigit {d : Char} (hd : d.isDigit = true) (hc : c.isDigit = false) : d ≠ c := by
  rintro rfl
  rw [hd] at hc
  cases hc

/-- Only one digit has the value zero. -/
theorem eq_zero_of_digitValue (hc : c.isDigit = true) (h : digitValue c = 0) : c = '0' := by
  have hlow : '0'.toNat ≤ c.toNat := by
    simp only [Char.isDigit, Bool.and_eq_true, decide_eq_true_eq] at hc
    exact UInt32.le_iff_toNat_le.1 hc.1
  have hzero : c.toNat - '0'.toNat = 0 := h
  exact Char.toNat_inj.1 (by omega)

namespace Literal

/-- The digits before the point are read, unless a zero stands before others. -/
theorem readWhole_digits (hds : Digits t) (hzero : t.head? = some '0' → t = ['0'])
    (hr : ∀ c ∈ r.head?, c.isDigit = false) : readWhole (t ++ r) = some (t.map digitValue, r) := by
  rw [readWhole, readDigits_digits hds hr]
  split
  · next h =>
    -- there are digits
    exact absurd (List.map_eq_nil_iff.1 (congrArg Prod.fst h)) hds.1
  · next h =>
    -- a zero with other digits behind it
    obtain ⟨c, u, rfl⟩ := List.exists_cons_of_ne_nil hds.1
    simp only [List.map_cons, Prod.mk.injEq, List.cons.injEq] at h
    obtain rfl := eq_zero_of_digitValue (hds.2 c List.mem_cons_self) h.1.1
    obtain rfl : u = [] := (List.cons.inj (hzero rfl)).2
    cases h.1.2
  · next h => rw [← h]

/-- A fraction is read. Without one, no point may follow. -/
theorem readFraction_fraction (h : Fraction t)
    (hr : ∀ c ∈ r.head?, c.isDigit = false ∧ c ≠ '.') :
    ∃ f, readFraction (t ++ r) = some (f, r) := by
  cases h with
  | absent =>
    refine ⟨none, ?_⟩
    rw [List.nil_append, readFraction]
    rintro u rfl
    exact (hr '.' rfl).2 rfl
  | @point ds hds =>
    -- a point without digits would be refused
    refine ⟨some (ds.map digitValue), ?_⟩
    rw [List.cons_append, readFraction, readDigits_digits hds fun c hc => (hr c hc).1]
    obtain ⟨d, u, rfl⟩ := List.exists_cons_of_ne_nil hds.1
    rfl

/-- An exponent is read. Without one, no letter may follow that starts one. -/
theorem readExponent_exponent (h : Exponent t)
    (hr : ∀ c ∈ r.head?, c.isDigit = false ∧ c ≠ 'e' ∧ c ≠ 'E') :
    ∃ e, readExponent (t ++ r) = some (e, r) := by
  cases h with
  | absent =>
    refine ⟨none, ?_⟩
    cases r with
    | nil => rfl
    | cons c r =>
      have hc : ¬ (c = 'e' ∨ c = 'E') := not_or.2 (hr c rfl).2
      unfold readExponent
      exact if_neg hc
  | @scale e sign ds he hsign hds =>
    have hread := readDigits_digits hds fun c hc => (hr c hc).1
    obtain ⟨d, u, rfl⟩ := List.exists_cons_of_ne_nil hds.1
    have hd := hds.2 d List.mem_cons_self
    -- a sign is told from the first digit
    have hplus : d ≠ '+' := by rintro rfl; cases hd
    have hminus : d ≠ '-' := by rintro rfl; cases hd
    unfold readExponent
    rw [List.cons_append] at hread
    obtain rfl | rfl | rfl := hsign
    · simp [he, hplus, hminus, hread]
    · simp [he, hread]
    · simp [he, hread]

/-- A number is read to its end. -/
theorem read_numeral (h : Numeral t) (hr : Follows r) : ∃ l, read (t ++ r) = some (l, r) := by
  obtain ⟨hsign, hds, hzero, hf, he⟩ := h
  rename_i sign ds f e
  have hhead := hr.head?_ne
  -- each part ends where the next one starts, or where the number ends
  have hexp : ∀ c ∈ (e ++ r).head?, c.isDigit = false ∧ c ≠ '.' := by
    cases he with
    | absent => exact fun c hc => ⟨(hhead c hc).1, (hhead c hc).2.1⟩
    | scale he =>
      rintro c ⟨⟩
      obtain rfl | rfl := he
      · decide
      · decide
  have hfrac : ∀ c ∈ (f ++ (e ++ r)).head?, c.isDigit = false := by
    cases hf with
    | absent => exact fun c hc => (hexp c hc).1
    | point =>
      rintro c ⟨⟩
      decide
  have hwhole := readWhole_digits hds hzero hfrac
  obtain ⟨x, hx⟩ := readFraction_fraction hf hexp
  obtain ⟨y, hy⟩ := readExponent_exponent he fun c hc => ⟨(hhead c hc).1, (hhead c hc).2.2⟩
  obtain ⟨d, u, rfl⟩ := List.exists_cons_of_ne_nil hds.1
  have hminus : d ≠ '-' := by
    rintro rfl
    cases hds.2 _ List.mem_cons_self
  rw [List.append_assoc, List.append_assoc, List.append_assoc]
  unfold read
  obtain rfl | rfl := hsign
  · rw [List.cons_append] at hwhole
    simp [hminus, hwhole, hx, hy]
  · rw [List.cons_append] at hwhole
    simp [hwhole, hx, hy]

end Literal

/-! ### Values -/

/-- A value that holds no others. -/
inductive Scalar : Text → Prop
  /-- One of the three words. -/
  | word (w : Word) : Scalar w.letters
  /-- A number of any size. -/
  | number {t : Text} (ht : Numeral t) : Scalar t
  /-- A text between quotation marks. -/
  | text {t : Text} (ht : Quotable t) : Scalar (mark :: (t ++ [mark]))

/-- The opening bracket. -/
def Bracket.opening : Bracket → Char
  | array => '['
  | object => '\x7b'

/-- What stands before an item: nothing in an array, and a key with its colon in an object. -/
inductive Lead : Bracket → Text → Prop
  /-- In an array a value is an item by itself. -/
  | array : Lead .array []
  /-- In an object a key stands before it, with blanks around the key. -/
  | object {s k s' : Text} (hs : Spaces s) (hk : Quotable k) (hs' : Spaces s') :
      Lead .object (s ++ mark :: (k ++ mark :: (s' ++ [':'])))

/-- A part of a JSON text. -/
inductive Part where
  /-- A value. -/
  | value
  /-- An item between brackets, with the blanks around it. -/
  | item (b : Bracket)
  /-- All items between brackets, of which there is at least one. -/
  | items (b : Bracket)

/-- The texts that JSON admits as a part. -/
inductive Written : Part → Text → Prop
  /-- A value without brackets. -/
  | scalar {t : Text} (ht : Scalar t) : Written .value t
  /-- Brackets with at most blanks between them. -/
  | empty (b : Bracket) {s : Text} (hs : Spaces s) :
      Written .value (b.opening :: (s ++ [b.closing]))
  /-- Brackets with items between them. -/
  | brackets {b : Bracket} {t : Text} (ht : Written (.items b) t) :
      Written .value (b.opening :: (t ++ [b.closing]))
  /-- A value with what stands before it and the blanks around it. -/
  | item {b : Bracket} {l s t s' : Text} (hl : Lead b l) (hs : Spaces s)
      (ht : Written .value t) (hs' : Spaces s') : Written (.item b) (l ++ (s ++ (t ++ s')))
  /-- A single item. -/
  | one {b : Bracket} {t : Text} (ht : Written (.item b) t) : Written (.items b) t
  /-- An item, a comma and the other items. -/
  | more {b : Bracket} {t u : Text} (ht : Written (.item b) t) (hu : Written (.items b) u) :
      Written (.items b) (t ++ ',' :: u)

theorem follows_closing (b : Bracket) (r : Text) : Follows (b.closing :: r) := by
  cases b with
  | array => exact follows_cons (by decide) r
  | object => exact follows_cons (by decide) r

theorem follows_comma (r : Text) : Follows (',' :: r) := follows_cons (by decide) r

/-! ### Values without brackets -/

/-- A character with which a value starts that has no brackets. -/
structure Begins (c : Char) : Prop where
  /-- It is no blank, with which values are separated. -/
  isSpace : isSpace c = false
  /-- It opens no bracket. -/
  opened? : Bracket.opened? c = none
  /-- It closes no bracket. -/
  ne_closing : c ≠ ']' ∧ c ≠ '\x7d'

theorem begins_of_isDigit (hc : c.isDigit = true) : Begins c where
  isSpace := by
    simp [Json.isSpace, ne_of_isDigit hc (c := ' ') rfl, ne_of_isDigit hc (c := '\n') rfl,
      ne_of_isDigit hc (c := '\t') rfl, ne_of_isDigit hc (c := '\r') rfl]
  opened? := by
    simp [Bracket.opened?, ne_of_isDigit hc (c := '[') rfl, ne_of_isDigit hc (c := '\x7b') rfl]
  ne_closing := ⟨ne_of_isDigit hc rfl, ne_of_isDigit hc rfl⟩

/-- A number starts with a minus sign or with a digit. -/
theorem Numeral.exists_cons (h : Numeral t) :
    ∃ c u, t = c :: u ∧ Begins c ∧ c ≠ mark ∧ (c = '-' ∨ c.isDigit = true) := by
  obtain ⟨rfl | rfl, hds, hzero, hf, he⟩ := h
  · obtain ⟨d, u, rfl⟩ := List.exists_cons_of_ne_nil hds.1
    have hd := hds.2 d List.mem_cons_self
    exact ⟨d, _, rfl, begins_of_isDigit hd, ne_of_isDigit hd rfl, Or.inr hd⟩
  · exact ⟨'-', _, rfl, ⟨rfl, rfl, by decide⟩, by decide, Or.inl rfl⟩

/-- A word starts with a letter, which is not the start of any other value. -/
theorem exists_cons_letters (w : Word) :
    ∃ c u, w.letters = c :: u ∧ Begins c ∧ c ≠ mark ∧ ¬ (c = '-' ∨ c.isDigit = true) := by
  cases w with
  | null => exact ⟨'n', _, rfl, ⟨rfl, rfl, by decide⟩, by decide⟩
  | true => exact ⟨'t', _, rfl, ⟨rfl, rfl, by decide⟩, by decide⟩
  | false => exact ⟨'f', _, rfl, ⟨rfl, rfl, by decide⟩, by decide⟩

/-- A value without brackets starts with a character that tells it from the others. -/
theorem Scalar.exists_cons (h : Scalar t) : ∃ c u, t = c :: u ∧ Begins c := by
  cases h with
  | word w =>
    obtain ⟨c, u, hu, hc, -⟩ := exists_cons_letters w
    exact ⟨c, u, hu, hc⟩
  | number ht =>
    obtain ⟨c, u, hu, hc, -⟩ := ht.exists_cons
    exact ⟨c, u, hu, hc⟩
  | text ht => exact ⟨mark, _, rfl, ⟨rfl, rfl, by decide⟩⟩

theorem readWord_letters (w : Word) (r : Text) : readWord (w.letters ++ r) = some (w, r) := by
  cases w with
  | null => rfl
  | true => rfl
  | false => rfl

/-- A value without brackets is passed over. -/
theorem skipScalar_scalar (h : Scalar t) (hr : Follows r) : skipScalar (t ++ r) = some r := by
  cases h with
  | word w =>
    have hread := readWord_letters w r
    obtain ⟨c, u, hu, hc, hmark, hnumber⟩ := exists_cons_letters w
    rw [hu, List.cons_append] at hread ⊢
    rw [skipScalar, if_neg hmark, if_neg hnumber, hread]
    rfl
  | number ht =>
    obtain ⟨l, hread⟩ := Literal.read_numeral ht hr
    obtain ⟨c, u, rfl, hc, hmark, hnumber⟩ := ht.exists_cons
    rw [List.cons_append] at hread ⊢
    rw [skipScalar, if_neg hmark, if_pos hnumber, hread]
    rfl
  | text ht =>
    rw [List.cons_append, List.append_assoc, skipScalar, if_pos rfl]
    exact skipBody_quotable ht r

/-! ### Values of any depth -/

theorem opened?_opening (b : Bracket) : Bracket.opened? b.opening = some b := by
  cases b with
  | array => rfl
  | object => rfl

theorem isSpace_opening (b : Bracket) : isSpace b.opening = false := by
  cases b with
  | array => rfl
  | object => rfl

theorem isSpace_closing (b : Bracket) : isSpace b.closing = false := by
  cases b with
  | array => rfl
  | object => rfl

/-- A value starts neither with a blank nor with a closing bracket. -/
theorem Written.exists_cons (h : Written .value t) :
    ∃ c u, t = c :: u ∧ isSpace c = false ∧ c ≠ ']' ∧ c ≠ '\x7d' := by
  have hopening (b : Bracket) : b.opening ≠ ']' ∧ b.opening ≠ '\x7d' := by
    cases b with
    | array => decide
    | object => decide
  cases h with
  | scalar ht =>
    obtain ⟨c, u, hu, hc⟩ := ht.exists_cons
    exact ⟨c, u, hu, hc.isSpace, hc.ne_closing⟩
  | empty b hs => exact ⟨b.opening, _, rfl, isSpace_opening b, hopening b⟩
  | @brackets b t ht => exact ⟨b.opening, _, rfl, isSpace_opening b, hopening b⟩

theorem lead_lead (hl : Lead b l) (r : Text) : b.lead (l ++ r) = some r := by
  cases hl with
  | array => rfl
  | object hs hk hs' =>
    simp only [List.append_assoc, List.cons_append, List.nil_append, Bracket.lead, skipKey,
      dropSpace_append_cons hs (c := mark) rfl, ↓reduceIte, skipBody_quotable hk, Option.bind_some,
      skipColon, dropSpace_append_cons hs' (c := ':') rfl]

/-- Items start with something else than the closing bracket. -/
theorem exists_dropSpace_of_item (h : Written (.item b) t) (r : Text) :
    ∃ c u, dropSpace (t ++ r) = c :: u ∧ c ≠ b.closing := by
  cases h with
  | item hl hs ht hs' =>
    cases hl with
    | array =>
      -- the item starts with its value
      obtain ⟨c, u, rfl, hc, hne, -⟩ := ht.exists_cons
      rw [List.nil_append, List.append_assoc, dropSpace_append hs, List.cons_append,
        List.cons_append, dropSpace_cons hc]
      exact ⟨c, _, rfl, hne⟩
    | object hk₁ hk hk₂ =>
      -- the item starts with the mark of its key
      rw [List.append_assoc, List.append_assoc, dropSpace_append hk₁, List.cons_append,
        dropSpace_cons rfl]
      exact ⟨mark, _, rfl, by decide⟩

/-- So do items, of which there is at least one. -/
theorem exists_dropSpace_of_items (h : Written (.items b) t) (r : Text) :
    ∃ c u, dropSpace (t ++ r) = c :: u ∧ c ≠ b.closing := by
  cases h with
  | one ht => exact exists_dropSpace_of_item ht r
  | more ht hu =>
    rw [List.append_assoc]
    exact exists_dropSpace_of_item ht _

variable {opened outer : List Bracket}

/-- What comes after a value is a closing bracket or a comma. -/
theorem skipOpen_after (b : Bracket) (outer : List Bracket) (t : Text) :
    skipOpen (b :: outer) true t =
      match dropSpace t with
      | [] => none
      | c :: r =>
        if c = b.closing then skipOpen outer true r
        else if c = ',' then (b.lead r).bind (skipOpen (b :: outer) false)
        else none := by
  rw [skipOpen]
  split <;> simp only [*]
  split
  · rfl
  split
  · split <;> simp only [*, Option.bind_none, Option.bind_some]
  · rfl

/-- A value has no brackets, nothing between them, or items. -/
theorem skipOpen_before (opened : List Bracket) (t : Text) :
    skipOpen opened false t =
      match dropSpace t with
      | [] => none
      | c :: r =>
        match Bracket.opened? c with
        | none => (skipScalar (c :: r)).bind (skipOpen opened true)
        | some b =>
          match dropSpace r with
          | [] => none
          | d :: u =>
            if d = b.closing then skipOpen opened true u
            else (b.lead r).bind (skipOpen (b :: opened) false) := by
  rw [skipOpen]
  split <;> simp only [*]
  split
  · split <;> simp only [*, Option.bind_none, Option.bind_some]
  · split <;> simp only [*]
    split
    · rfl
    · split <;> simp only [*, Option.bind_none, Option.bind_some]

/-- A closing bracket closes the innermost one. -/
theorem skipOpen_closing (hs : Spaces s) (r : Text) :
    skipOpen (b :: outer) true (s ++ b.closing :: r) = skipOpen outer true r := by
  simp only [skipOpen_after, dropSpace_append_cons hs (isSpace_closing b), ↓reduceIte]

theorem skipOpen_comma (r : Text) :
    skipOpen (b :: outer) true (',' :: r) = (b.lead r).bind (skipOpen (b :: outer) false) := by
  have hne : ',' ≠ b.closing := by
    cases b with
    | array => decide
    | object => decide
  simp only [skipOpen_after, dropSpace_cons (c := ',') rfl, if_neg hne, ↓reduceIte]

theorem skipOpen_spaces (hs : Spaces s) (r : Text) :
    skipOpen (b :: outer) true (s ++ r) = skipOpen (b :: outer) true r := by
  rw [skipOpen_after, skipOpen_after, dropSpace_append hs]

/-- What it means that a part is passed over. -/
def PassedOver : Part → Text → Prop
  | .value, t => ∀ (opened : List Bracket) (s r : Text), Spaces s → Follows r →
      skipOpen opened false (s ++ (t ++ r)) = skipOpen opened true r
  | .item b, t => ∀ (outer : List Bracket) (r : Text), Follows r →
      (b.lead (t ++ r)).bind (skipOpen (b :: outer) false) = skipOpen (b :: outer) true r
  | .items b, t => ∀ (outer : List Bracket) (r : Text),
      (b.lead (t ++ b.closing :: r)).bind (skipOpen (b :: outer) false) = skipOpen outer true r

/-- Every part is passed over, and whatever brackets are open stay open. -/
theorem passedOver {p : Part} (h : Written p t) : PassedOver p t := by
  -- each part ends where something shows its end, so that what follows it is left as it is
  induction h with
  | scalar ht =>
    intro opened s r hs hr
    obtain ⟨c, u, rfl, hc⟩ := ht.exists_cons
    have hskip := skipScalar_scalar ht hr
    rw [List.cons_append] at hskip ⊢
    rw [skipOpen_before, dropSpace_append_cons hs hc.isSpace]
    simp only [hc.opened?, hskip, Option.bind_some]
  | empty b hs' =>
    intro opened s r hs hr
    rw [List.cons_append, List.append_assoc, skipOpen_before,
      dropSpace_append_cons hs (isSpace_opening b)]
    simp only [opened?_opening, List.singleton_append,
      dropSpace_append_cons hs' (isSpace_closing b), ↓reduceIte]
  | @brackets b t ht ih =>
    intro opened s r hs hr
    obtain ⟨d, u, hd, hne⟩ := exists_dropSpace_of_items ht (b.closing :: r)
    rw [List.cons_append, List.append_assoc, skipOpen_before,
      dropSpace_append_cons hs (isSpace_opening b)]
    simp only [opened?_opening, List.singleton_append, hd, if_neg hne]
    exact ih opened r
  | @item b l s t s' hl hs ht hs' ih =>
    intro outer r hr
    rw [List.append_assoc, lead_lead hl, Option.bind_some, List.append_assoc, List.append_assoc,
      ih (b :: outer) s (s' ++ r) hs (hr.append hs'), skipOpen_spaces hs']
  | @one b t ht ih =>
    intro outer r
    rw [ih outer (b.closing :: r) (follows_closing b r)]
    exact skipOpen_closing spaces_nil r
  | @more b t u ht hu iht ihu =>
    intro outer r
    rw [List.append_assoc, List.cons_append, iht outer _ (follows_comma _), skipOpen_comma]
    exact ihu outer r

/-- A value is passed over, with all that it holds. -/
theorem skipValue_written (h : Written .value t) (hs : Spaces s) (hr : Follows r) :
    skipValue (s ++ (t ++ r)) = some r := by
  have hpass : PassedOver .value t := passedOver h
  rw [skipValue, hpass [] s r hs hr, skipOpen]

end SqlScript.Json
