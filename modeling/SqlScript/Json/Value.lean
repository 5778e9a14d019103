import SqlScript.Json.Number

/-!
# Values in JSON

`skipValue` passes over one value of any kind, however deep it is. It keeps the brackets that are
open in a list, and asks of a text only that it is spelled as JSON demands: the values of numbers
and the characters that escapes stand for do not matter.
-/

namespace SqlScript.Json

/-- The words of JSON. -/
inductive Word where
  /-- No value. -/
  | null
  /-- The truth value `true`. -/
  | true
  /-- The truth value `false`. -/
  | false
deriving DecidableEq, Repr

/-- The letters of a word. -/
def Word.letters : Word → Text
  | null => ['n', 'u', 'l', 'l']
  | true => ['t', 'r', 'u', 'e']
  | false => ['f', 'a', 'l', 's', 'e']

/-- Reads a word. -/
def readWord (t : Text) : Option (Word × Text) :=
  match Text.after? Word.null.letters t with
  | some r => some (.null, r)
  | none =>
    match Text.after? Word.true.letters t with
    | some r => some (.true, r)
    | none => (Text.after? Word.false.letters t).map fun r => (.false, r)

/-- A word that is read stands at the start of the text. -/
theorem eq_of_readWord {t r : Text} {w : Word} (h : readWord t = some (w, r)) :
    t = w.letters ++ r := by
  unfold readWord at h
  split at h
  · next r' hr =>
    simp only [Option.some.injEq, Prod.mk.injEq] at h
    obtain ⟨rfl, rfl⟩ := h
    exact Text.after?_eq_some_iff.1 hr
  · split at h
    · next r' hr =>
      simp only [Option.some.injEq, Prod.mk.injEq] at h
      obtain ⟨rfl, rfl⟩ := h
      exact Text.after?_eq_some_iff.1 hr
    · obtain ⟨r', hr, heq⟩ := Option.map_eq_some_iff.1 h
      simp only [Prod.mk.injEq] at heq
      obtain ⟨rfl, rfl⟩ := heq
      exact Text.after?_eq_some_iff.1 hr

/-- A word takes its letters. -/
theorem length_lt_of_readWord {t r : Text} {w : Word} (h : readWord t = some (w, r)) :
    r.length < t.length := by
  rw [eq_of_readWord h, List.length_append]
  cases w <;> simp [Word.letters]

/-- Passes over a value that holds no others. -/
def skipScalar (t : Text) : Option Text :=
  match t with
  | [] => none
  | c :: r =>
    if c = mark then skipBody r
    else if c = '-' ∨ c.isDigit then (Literal.read t).map (·.2)
    else (readWord t).map (·.2)

theorem length_lt_of_skipScalar {t r : Text} (h : skipScalar t = some r) :
    r.length < t.length := by
  unfold skipScalar at h
  split at h
  · simp at h
  · next c r' =>
    split at h
    · have := length_lt_of_skipBody h
      rw [List.length_cons]
      omega
    split at h
    · obtain ⟨⟨l, u⟩, hl, rfl⟩ := Option.map_eq_some_iff.1 h
      exact Literal.length_lt_of_read hl
    · obtain ⟨⟨w, u⟩, hw, rfl⟩ := Option.map_eq_some_iff.1 h
      exact length_lt_of_readWord hw

/-- Passes over a colon and the blanks before it. -/
def skipColon (t : Text) : Option Text :=
  match dropSpace t with
  | ':' :: r => some r
  | _ => none

theorem length_lt_of_skipColon {t r : Text} (h : skipColon t = some r) : r.length < t.length := by
  unfold skipColon at h
  split at h
  · next r' heq =>
    simp only [Option.some.injEq] at h
    exact h ▸ length_lt_of_dropSpace heq
  · simp at h

/-- Passes over a key with its colon, and the blanks before them. -/
def skipKey (t : Text) : Option Text :=
  match dropSpace t with
  | [] => none
  | c :: r => if c = mark then (skipBody r).bind skipColon else none

/-- A key takes its marks and its colon. -/
theorem length_lt_of_skipKey {t r : Text} (h : skipKey t = some r) : r.length < t.length := by
  unfold skipKey at h
  split at h
  · simp at h
  · next c r' heq =>
    split at h
    · obtain ⟨u, hu, hr⟩ := Option.bind_eq_some_iff.1 h
      exact Nat.lt_trans (length_lt_of_skipColon hr)
        (Nat.lt_trans (length_lt_of_skipBody hu) (length_lt_of_dropSpace heq))
    · simp at h

/-- A bracket that is open. -/
inductive Bracket where
  /-- That of an array. -/
  | array
  /-- That of an object. -/
  | object
deriving DecidableEq, Repr

namespace Bracket

/-- The closing bracket. -/
def closing : Bracket → Char
  | array => ']'
  | object => '\x7d'

/-- The bracket that a character opens. -/
def opened? (c : Char) : Option Bracket :=
  if c = '[' then some array else if c = '\x7b' then some object else none

/-- Passes over what stands between an opening bracket or a comma and a value. -/
def lead : Bracket → Text → Option Text
  | array, t => some t
  | object, t => skipKey t

/-- What stands before an item takes nothing in an array, and a key in an object. -/
theorem length_le_of_lead {b : Bracket} {t r : Text} (h : b.lead t = some r) :
    r.length ≤ t.length := by
  cases b with
  | array => simp only [lead, Option.some.injEq] at h; exact h ▸ Nat.le_refl _
  | object => exact Nat.le_of_lt (length_lt_of_skipKey h)

end Bracket

/-- Passes over the rest of the values inside of which brackets are `opened`, the innermost first.
What comes next is a value, or, `after` a value, what follows it. -/
def skipOpen (opened : List Bracket) (after : Bool) (t : Text) : Option Text :=
  match after, opened with
  | true, [] => some t
  | true, b :: outer =>
    match _ht : dropSpace t with
    | [] => none
    | c :: r =>
      if c = b.closing then skipOpen outer true r
      else if c = ',' then
        match _hl : b.lead r with
        | none => none
        | some r => skipOpen (b :: outer) false r
      else none
  | false, opened =>
    match _ht : dropSpace t with
    | [] => none
    | c :: r =>
      match Bracket.opened? c with
      | none =>
        match _hs : skipScalar (c :: r) with
        | none => none
        | some r => skipOpen opened true r
      | some b =>
        match _hc : dropSpace r with
        | [] => none
        | d :: u =>
          if d = b.closing then skipOpen opened true u
          else
            match _hl : b.lead r with
            | none => none
            | some r => skipOpen (b :: opened) false r
termination_by t.length
decreasing_by
  · exact length_lt_of_dropSpace _ht
  · exact Nat.lt_of_le_of_lt (Bracket.length_le_of_lead _hl) (length_lt_of_dropSpace _ht)
  · exact Nat.lt_of_lt_of_le (length_lt_of_skipScalar _hs) (_ht ▸ length_dropSpace_le t)
  · exact Nat.lt_trans (length_lt_of_dropSpace _hc) (length_lt_of_dropSpace _ht)
  · exact Nat.lt_of_le_of_lt (Bracket.length_le_of_lead _hl) (length_lt_of_dropSpace _ht)

/-- Passes over one value and the blanks before it. -/
def skipValue (t : Text) : Option Text := skipOpen [] false t

/-- Passing over the rest of values never gives more than there was. -/
theorem length_le_of_skipOpen {opened : List Bracket} {after : Bool} {t r : Text}
    (h : skipOpen opened after t = some r) : r.length ≤ t.length := by
  fun_induction skipOpen opened after t with
  | case1 => simp only [Option.some.injEq] at h; exact h ▸ Nat.le_refl _
  | case2 | case4 | case6 | case7 | case8 | case10 | case12 => simp at h
  | case3 t b outer u ht ih =>
    exact Nat.le_trans (ih h) (Nat.le_of_lt (length_lt_of_dropSpace ht))
  | case5 t b outer u v hl ht hne ih =>
    exact Nat.le_trans (ih h)
      (Nat.le_trans (Bracket.length_le_of_lead hl) (Nat.le_of_lt (length_lt_of_dropSpace ht)))
  | case9 t opened c u ht hc v hs ih =>
    exact Nat.le_trans (ih h)
      (Nat.le_trans (Nat.le_of_lt (length_lt_of_skipScalar hs)) (ht ▸ length_dropSpace_le t))
  | case11 t opened c u ht b hb v hv ih =>
    exact Nat.le_trans (ih h)
      (Nat.le_of_lt (Nat.lt_trans (length_lt_of_dropSpace hv) (length_lt_of_dropSpace ht)))
  | case13 t opened c u ht b hb d v hv hne w hl ih =>
    exact Nat.le_trans (ih h)
      (Nat.le_trans (Bracket.length_le_of_lead hl) (Nat.le_of_lt (length_lt_of_dropSpace ht)))

end SqlScript.Json
