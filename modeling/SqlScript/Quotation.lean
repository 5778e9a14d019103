/-!
# Quotations and escapes

A `Context` says how the next character of a script is to be read: inside a quotation or not, and
right after an escaping backslash or not. `Context.read` is the automaton that keeps it: a
backslash makes the next character an ordinary one, a quotation mark opens a quotation, and the
same mark closes it.

A character is literal (`Context.isLiteral`) when it belongs to the text whatever it is. Any other
character leaves the context clear (`read_eq_clear`), so that tokens are looked for in the clear
context only.
-/

namespace SqlScript

/-- The two kinds of quotation. -/
inductive Quote where
  /-- Between single quotation marks. -/
  | single
  /-- Between double quotation marks. -/
  | double
deriving DecidableEq, Repr

namespace Quote

/-- The mark that opens and closes a quotation. -/
def mark : Quote → Char
  | single => '\x27'
  | double => '\x22'

/-- The kind of quotation that a character opens. -/
def ofMark? (c : Char) : Option Quote :=
  if c = single.mark then some single else if c = double.mark then some double else none

theorem ofMark?_eq_some_iff {c : Char} {q : Quote} : ofMark? c = some q ↔ c = q.mark := by
  unfold ofMark?
  split
  · next h => subst h; cases q <;> decide
  · next h =>
    split
    · next h' => subst h'; cases q <;> decide
    · next h' => cases q <;> simp_all

theorem ofMark?_eq_none_iff {c : Char} : ofMark? c = none ↔ ∀ q : Quote, c ≠ q.mark := by
  rw [Option.eq_none_iff_forall_ne_some]
  exact ⟨fun h q hq => h q (ofMark?_eq_some_iff.2 hq),
    fun h q hq => h q (ofMark?_eq_some_iff.1 hq)⟩

end Quote

/-- The character that makes the next one an ordinary one. -/
def escapeMark : Char := '\\'

/-- How the next character is to be read. -/
structure Context where
  /-- The quotation that is open. -/
  quote : Option Quote
  /-- Whether the character before was an escaping backslash. -/
  escaped : Bool
deriving DecidableEq, Repr

namespace Context

/-- Outside of quotations and escapes. -/
def clear : Context := ⟨none, false⟩

/-- The context after one more character. -/
def read (x : Context) (c : Char) : Context :=
  if x.escaped then { x with escaped := false }
  else if c = escapeMark then { x with escaped := true }
  else
    match x.quote with
    | none => { x with quote := Quote.ofMark? c }
    | some q => if c = q.mark then { x with quote := none } else x

/-- The context after a whole text. -/
def readAll (x : Context) (t : List Char) : Context := t.foldl read x

/-- Whether a character that stands in this context belongs to the text whatever it is: it is
escaped or escapes, or it is inside a quotation or opens one. -/
def isLiteral (x : Context) (c : Char) : Bool :=
  x.escaped || c == escapeMark || (x.read c).quote.isSome

/-- A character that is not literal leaves the context clear. -/
theorem read_eq_clear {x : Context} {c : Char} (h : x.isLiteral c = false) :
    x.read c = clear := by
  obtain ⟨quote, escaped⟩ := x
  simp only [isLiteral, Bool.or_eq_false_iff, beq_eq_false_iff_ne, ne_eq] at h
  obtain ⟨⟨rfl, hc⟩, hq⟩ := h
  cases quote with
  | none => simp_all [read, clear]
  | some q =>
    by_cases hm : c = q.mark <;> simp_all [read, clear]

/-- Of the characters that are not literal only closing marks stand in another context than the
clear one. -/
theorem eq_clear_of_isLiteral_eq_false {x : Context} {c : Char} (hc : ∀ q : Quote, c ≠ q.mark)
    (h : x.isLiteral c = false) : x = clear := by
  obtain ⟨quote, escaped⟩ := x
  simp only [isLiteral, Bool.or_eq_false_iff, beq_eq_false_iff_ne, ne_eq] at h
  obtain ⟨⟨rfl, hesc⟩, hq⟩ := h
  cases quote with
  | none => rfl
  | some q => simp [read, hesc, hc q] at hq

/-- In the clear context only marks and the backslash are literal. -/
theorem isLiteral_clear {c : Char} (hesc : c ≠ escapeMark) (hc : ∀ q : Quote, c ≠ q.mark) :
    clear.isLiteral c = false := by
  have hq : Quote.ofMark? c = none := Quote.ofMark?_eq_none_iff.2 hc
  simp [isLiteral, clear, read, hesc, hq]

/-- The closing mark of a quotation is not literal. -/
theorem isLiteral_mark (q : Quote) : isLiteral ⟨some q, false⟩ q.mark = false := by
  cases q <;> decide

@[simp] theorem readAll_nil (x : Context) : x.readAll [] = x := rfl

@[simp] theorem readAll_cons (x : Context) (c : Char) (t : List Char) :
    x.readAll (c :: t) = (x.read c).readAll t := rfl

@[simp] theorem readAll_append (x : Context) (s t : List Char) :
    x.readAll (s ++ t) = (x.readAll s).readAll t := List.foldl_append

end Context

end SqlScript
