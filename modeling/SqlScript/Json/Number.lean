import SqlScript.Json.Quoted
import SqlScript.Number.Shortest

/-!
# Numbers in JSON

`Literal.read` reads a number as it is written. `Literal.value?` says what it is: an integer if it
is written as one and fits into 64 bits, with or without a sign, and a binary number otherwise.

A binary number is made from the digits in two steps. As many digits as fit into 64 bits make a
significand, and the others count only by their place before the point; then the significand is
rounded and scaled by the power of ten that is left. A number that is too large for the format is
no number.
-/

namespace SqlScript.Json

/-- A number as it is written. -/
structure Literal where
  /-- Whether a minus sign stands before it. -/
  negative : Bool
  /-- The digits before the point. -/
  whole : List Nat
  /-- The digits after the point, if there is one. -/
  fraction : Option (List Nat)
  /-- The exponent, if there is one. -/
  exponent : Option Int
deriving DecidableEq, Repr

/-- What a number is. -/
inductive Number where
  /-- A whole number. -/
  | integer (n : Int)
  /-- A binary number with a sign. -/
  | floating (negative : Bool) (magnitude : Binary)
deriving DecidableEq, Repr

/-- The value of a decimal digit. -/
def digitValue (c : Char) : Nat := c.toNat - '0'.toNat

/-- Reads the digits at the start of a text. -/
def readDigits (t : Text) : List Nat × Text :=
  ((t.takeWhile Char.isDigit).map digitValue, t.dropWhile Char.isDigit)

/-- The digits and what is left are the whole text. -/
theorem length_add_length_of_readDigits {t r : Text} {ds : List Nat} (h : readDigits t = (ds, r)) :
    ds.length + r.length = t.length := by
  have hlen := congrArg List.length (List.takeWhile_append_dropWhile (p := Char.isDigit) (l := t))
  simp only [readDigits, Prod.mk.injEq] at h
  rwa [List.length_append, h.2, ← List.length_map (f := digitValue), h.1] at hlen

/-- The number that digits spell. -/
def ofDigits (ds : List Nat) : Nat := ds.foldl (fun n d => 10 * n + d) 0

namespace Literal

/-- Reads the digits before the point. A zero at their start is the only one. -/
def readWhole (t : Text) : Option (List Nat × Text) :=
  match readDigits t with
  | ([], _) => none
  | (0 :: _ :: _, _) => none
  | (ds, r) => some (ds, r)

/-- Reads a point and the digits after it, if there is a point. -/
def readFraction (t : Text) : Option (Option (List Nat) × Text) :=
  match t with
  | '.' :: t =>
    match readDigits t with
    | ([], _) => none
    | (ds, r) => some (some ds, r)
  | t => some (none, t)

/-- Reads an exponent, if there is one. -/
def readExponent (t : Text) : Option (Option Int × Text) :=
  match t with
  | [] => some (none, [])
  | c :: t =>
    if c = 'e' ∨ c = 'E' then
      let (negative, t) : Bool × Text := match t with
        | '+' :: t => (false, t)
        | '-' :: t => (true, t)
        | t => (false, t)
      match readDigits t with
      | ([], _) => none
      | (ds, r) => some (some (if negative then -(ofDigits ds : Int) else ofDigits ds), r)
    else some (none, c :: t)

/-- Reads a number. -/
def read (t : Text) : Option (Literal × Text) := do
  let (negative, t) : Bool × Text := match t with
    | '-' :: t => (true, t)
    | t => (false, t)
  let (whole, t) ← readWhole t
  let (fraction, t) ← readFraction t
  let (exponent, t) ← readExponent t
  return (⟨negative, whole, fraction, exponent⟩, t)

/-- At least one digit is read before the point. -/
theorem length_lt_of_readWhole {t r : Text} {ds : List Nat} (h : readWhole t = some (ds, r)) :
    r.length < t.length := by
  unfold readWhole at h
  split at h
  · simp at h
  · simp at h
  · next ds' r' hne hz heq =>
    simp only [Option.some.injEq, Prod.mk.injEq] at h
    obtain ⟨rfl, rfl⟩ := h
    have := length_add_length_of_readDigits heq
    have := List.length_pos_iff.2 hne
    omega

/-- A fraction, if there is one, takes something of the text. -/
theorem length_le_of_readFraction {t r : Text} {f : Option (List Nat)}
    (h : readFraction t = some (f, r)) : r.length ≤ t.length := by
  unfold readFraction at h
  split at h
  · next t' =>
    split at h
    · simp at h
    · next ds r' hne heq =>
      simp only [Option.some.injEq, Prod.mk.injEq] at h
      have := length_add_length_of_readDigits heq
      simp only [← h.2, List.length_cons]
      omega
  · simp only [Option.some.injEq, Prod.mk.injEq] at h
    simp [h.2]

theorem length_le_of_readExponent {t r : Text} {e : Option Int}
    (h : readExponent t = some (e, r)) : r.length ≤ t.length := by
  unfold readExponent at h
  split at h
  · simp only [Option.some.injEq, Prod.mk.injEq] at h
    simp [← h.2]
  · next c t' =>
    split at h
    · split at h
      next negative u hu =>
      -- the sign, if there is one, is passed over first
      have hle : u.length ≤ t'.length := by
        split at hu <;> · simp only [Prod.mk.injEq] at hu; simp [← hu.2]
      split at h
      · simp at h
      · next ds r' hne heq =>
        simp only [Option.some.injEq, Prod.mk.injEq] at h
        have := length_add_length_of_readDigits heq
        simp only [← h.2, List.length_cons]
        omega
    · simp only [Option.some.injEq, Prod.mk.injEq] at h
      simp [← h.2]

/-- A number takes at least one character. -/
theorem length_lt_of_read {t r : Text} {l : Literal} (h : read t = some (l, r)) :
    r.length < t.length := by
  unfold read at h
  split at h
  next negative u hu =>
  have hle : u.length ≤ t.length := by
    split at hu <;> · simp only [Prod.mk.injEq] at hu; simp [← hu.2]
  simp only [Option.bind_eq_bind, Option.bind_eq_some_iff, pure, Option.some.injEq] at h
  obtain ⟨⟨ds, a⟩, ha, ⟨f, b⟩, hb, ⟨e, c⟩, hc, heq⟩ := h
  simp only [Prod.mk.injEq] at heq
  rw [← heq.2]
  exact Nat.lt_of_le_of_lt (length_le_of_readExponent hc)
    (Nat.lt_of_le_of_lt (length_le_of_readFraction hb)
      (Nat.lt_of_lt_of_le (length_lt_of_readWhole ha) hle))

/-! ### Values -/

/-- The largest number without a sign that fits into 64 bits. -/
def maxUnsigned : Nat := 0xffffffffffffffff

/-- The largest number behind a minus sign that fits into 64 bits. -/
def maxNegative : Nat := 0x8000000000000000

/-- Appends digits to a significand as long as it fits into 64 bits, and leaves the others. -/
def absorb (m : Nat) : List Nat → Nat × List Nat
  | [] => (m, [])
  | d :: ds => if m * 10 + d ≤ maxUnsigned then absorb (m * 10 + d) ds else (m, d :: ds)

/-- The number `m * 10 ^ e` with a sign. -/
def scaled? (negative : Bool) (m : Nat) (e : Int) : Option Number :=
  match e with
  | .ofNat n => ((Binary.ofNat m).scaleUp? n).map (.floating negative)
  | .negSucc n => some (.floating negative ((Binary.ofNat m).scaleDown (n + 1)))

/-- What a number is, unless it is too large. -/
def value? (l : Literal) : Option Number :=
  let (m, left) := absorb 0 l.whole
  match l.fraction, l.exponent, left with
  | none, none, [] =>
    if !l.negative then some (.integer m)
    else if m = 0 ∨ maxNegative < m then some (.floating true (Binary.ofNat m))
    else some (.integer (-m))
  | fraction, exponent, left =>
    let digits := fraction.getD []
    let (m, unused) := absorb m digits
    scaled? l.negative m (exponent.getD 0 + left.length - (digits.length - unused.length : Nat))

end Literal

/-- Reads a number that is not too large. -/
def readNumber (t : Text) : Option (Number × Text) := do
  let (l, r) ← Literal.read t
  let n ← l.value?
  return (n, r)

end SqlScript.Json
