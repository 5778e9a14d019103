import SqlScript.Number.Binary
import SqlScript.Text

/-!
# The shortest decimal of a binary number

`Decimal.shortest` names a binary number by the fewest decimal digits that round to it, and by the
nearest such digits if there are several; of two that are equally near it takes the even one. It
looks at one decimal grid after the other, from coarse to fine, and on each grid only at the two
neighbours of the number.

`NumberFormat` decides how the digits are written.
-/

namespace SqlScript

/-- The number `coefficient * 10 ^ exponent`. -/
structure Decimal where
  /-- The digits as a whole number. -/
  coefficient : Nat
  /-- The power of ten. -/
  exponent : Int
deriving DecidableEq, Repr

namespace Decimal

/-- The half-way points to the neighbours of a binary number, in quarters of its last place. Below
a power of two the neighbour is at half the distance. -/
def bounds (x : Binary) : Nat × Nat :=
  let low :=
    if x.mantissa = Binary.powTwo (Binary.precision - 1) ∧ Binary.minExponent < x.exponent then 1
    else 2
  (4 * x.mantissa - low, 4 * x.mantissa + 2)

/-- The decimal on the grid `10 ^ k` that rounds to `x` and is nearest to it. -/
def onGrid? (x : Binary) (k : Int) : Option Decimal :=
  let quarter := x.exponent - 2
  -- `c` units of the grid are compared with `w` quarters as `c * unit` with `w * scale`
  let unit := Nat.pow 10 k.toNat * Binary.powTwo (-quarter).toNat
  let scale := Nat.pow 10 (-k).toNat * Binary.powTwo quarter.toNat
  let (low, high) := bounds x
  let value := 4 * x.mantissa * scale
  let roundsTo (c : Nat) : Bool :=
    if x.mantissa % 2 = 0 then low * scale ≤ c * unit && c * unit ≤ high * scale
    else low * scale < c * unit && c * unit < high * scale
  let below := value / unit
  let above := below + 1
  let pick (c : Nat) : Option Decimal := some ⟨c, k⟩
  match roundsTo below, roundsTo above with
  | true, true => pick (roundDiv value unit)
  | true, false => pick below
  | false, true => pick above
  | false, false => none

/-- The power of ten above all numbers of the format. -/
def topExponent : Int := 310

/-- The number of grids, the last of which holds every number of the format. -/
def gridCount : Nat := 1385

/-- The fewest digits that round to the number. -/
def shortest (x : Binary) : Decimal :=
  if x.mantissa = 0 then ⟨0, 0⟩
  else
    ((List.range gridCount).findSome? fun i : Nat => onGrid? x (topExponent - i)).getD ⟨0, 0⟩

end Decimal

/-- How the digits of a number are written. -/
structure NumberFormat where
  /-- The least power of ten of the first digit that is written without an exponent. -/
  positionalFrom : Int
  /-- The greatest such power. -/
  positionalTo : Int
  /-- Whether a positive exponent has a sign. -/
  exponentSign : Bool
deriving DecidableEq, Repr

namespace NumberFormat

/-- Exponents are written from `1e+16` and below `1e-5`, with a sign. -/
def standard : NumberFormat := ⟨-5, 15, true⟩

/-- A whole number in decimal digits. -/
def ofNat (n : Nat) : Text := Nat.toDigits 10 n

/-- An exponent. -/
def ofExponent (f : NumberFormat) (e : Int) : Text :=
  'e' :: ((if e < 0 then ['-'] else if f.exponentSign then ['+'] else []) ++ ofNat e.natAbs)

/-- A decimal number. A whole number that is written without an exponent gets a zero after its
point. -/
def ofDecimal (f : NumberFormat) (x : Decimal) : Text :=
  let digits := ofNat x.coefficient
  let lead := x.exponent + digits.length - 1
  if x.coefficient = 0 then ['0', '.', '0']
  else if f.positionalFrom ≤ lead ∧ lead ≤ f.positionalTo then
    if 0 ≤ x.exponent then digits ++ List.replicate x.exponent.toNat '0' ++ ['.', '0']
    else if 0 ≤ lead then
      digits.take (lead.toNat + 1) ++ '.' :: digits.drop (lead.toNat + 1)
    else '0' :: '.' :: (List.replicate (-lead - 1).toNat '0' ++ digits)
  else
    match digits with
    | [] => []
    | [d] => d :: f.ofExponent lead
    | d :: ds => d :: '.' :: (ds ++ f.ofExponent lead)

end NumberFormat

/-- The text of a binary number with a sign. -/
def Binary.toText (negative : Bool) (x : Binary) : Text :=
  (if negative then ['-'] else []) ++ NumberFormat.standard.ofDecimal (Decimal.shortest x)

end SqlScript
