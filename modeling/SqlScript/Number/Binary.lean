/-!
# Binary floating-point numbers

`Binary` holds the numbers that a significand of 53 bits and a power of two can name, down to the
fixed point at `2 ^ -1074`. `Binary.ofRatio` rounds a quotient to the nearest of them, and a half
to the even significand; the rounding itself is `roundDiv`. There is no largest exponent: a number
that is too large for the format is told by `Binary.overflows`.
-/

namespace SqlScript

/-- The quotient rounded to the nearest number, a half to the even one. -/
def roundDiv (num den : Nat) : Nat :=
  let q := num / den
  if 2 * (num % den) < den then q
  else if den < 2 * (num % den) then q + 1
  else q + q % 2

/-- The number `mantissa * 2 ^ exponent`. -/
structure Binary where
  /-- The significand. -/
  mantissa : Nat
  /-- The power of two. -/
  exponent : Int
deriving DecidableEq, Repr

namespace Binary

/-- A power of two. -/
def powTwo (n : Nat) : Nat := Nat.pow 2 n

/-- The number of bits of a significand. -/
def precision : Nat := 53

/-- The least exponent. -/
def minExponent : Int := -1074

/-- The greatest exponent of a number that the format holds. -/
def maxExponent : Int := 971

/-- Zero. -/
def zero : Binary := ⟨0, minExponent⟩

/-- Whether the number is too large for the format. -/
def overflows (x : Binary) : Bool := x.exponent > maxExponent

/-- The numerator of the number as a quotient. -/
def num (x : Binary) : Nat := x.mantissa * powTwo x.exponent.toNat

/-- The denominator of the number as a quotient. -/
def den (x : Binary) : Nat := powTwo (-x.exponent).toNat

/-- The quotient of `num` and `den`, rounded to a multiple of `2 ^ e`. -/
def roundAt (num den : Nat) (e : Int) : Binary :=
  let m := roundDiv (num * powTwo (-e).toNat) (den * powTwo e.toNat)
  if m = powTwo precision then ⟨powTwo (precision - 1), e + 1⟩ else ⟨m, e⟩

/-- The exponent for a quotient: the one that leaves a significand of full length, or the least. -/
def exponentFor (num den : Nat) : Int :=
  let e := max ((Nat.log2 num : Int) - Nat.log2 den - precision) minExponent
  if num * powTwo (-e).toNat / (den * powTwo e.toNat) < powTwo precision then e else e + 1

/-- The quotient of `num` and `den`, rounded. -/
def ofRatio (num den : Nat) : Binary :=
  if num = 0 then zero else roundAt num den (exponentFor num den)

/-- A whole number, rounded. -/
def ofNat (n : Nat) : Binary := ofRatio n 1

/-- A power of ten, rounded. -/
def powTen (n : Nat) : Binary := ofNat (Nat.pow 10 n)

/-- The product of two numbers, rounded. -/
def mul (x y : Binary) : Binary := ofRatio (x.num * y.num) (x.den * y.den)

/-- The quotient of two numbers, rounded. -/
def div (x y : Binary) : Binary := ofRatio (x.num * y.den) (x.den * y.num)

/-- The greatest power of ten that the format holds. -/
def maxPowTen : Nat := 308

/-- The number times a power of ten, unless that is too large for the format. -/
def scaleUp? (x : Binary) (n : Nat) : Option Binary :=
  if n ≤ maxPowTen then
    let y := x.mul (powTen n)
    if y.overflows then none else some y
  else if x.mantissa = 0 then some x
  else none

/-- The number divided by a power of ten, in steps of powers that the format holds. -/
def scaleDown (x : Binary) (n : Nat) : Binary :=
  if n ≤ maxPowTen then x.div (powTen n)
  else if x.mantissa = 0 then x
  else (x.div (powTen maxPowTen)).scaleDown (n - maxPowTen)
termination_by n
decreasing_by
  simp only [maxPowTen] at *
  omega

end Binary

end SqlScript
