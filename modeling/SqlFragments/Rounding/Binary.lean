/-! # Binary fractions of double precision

The non-negative numbers of double precision: a mantissa of at most 53 bits times a power of two,
in exact integer arithmetic. Every operation rounds the exact result to the nearest such number,
and of two equally near ones to that with the even mantissa. -/

namespace SqlFragments.Rounding

/-- The number `mantissa * 2 ^ exponent`. -/
structure Magnitude where
  mantissa : Nat
  exponent : Int
  deriving DecidableEq, Repr

/-- The quotient of two numbers, rounded to the nearest integer, a half to the even one. -/
def roundDiv (num den : Nat) : Nat :=
  let quotient := num / den
  let twice := 2 * (num % den)
  if twice < den then quotient
  else if den < twice then quotient + 1
  else quotient + quotient % 2

/-- A ratio times a power of `base`, again as a ratio. -/
def scale (base : Nat) (exponent : Int) (num den : Nat) : Nat × Nat :=
  if 0 ≤ exponent then (num * Nat.pow base exponent.toNat, den)
  else (num, den * Nat.pow base (-exponent).toNat)

/-- The exponent of the greatest power of two that does not exceed a positive ratio. -/
def floorLog2 (num den : Nat) : Int :=
  let guess : Int := (num.log2 : Int) - (den.log2 : Int)
  let (n, d) := scale 2 (-guess) num den
  if d ≤ n then guess else guess - 1

namespace Magnitude

/-- The least exponent. -/
def minExponent : Int := -1074

/-- The greatest exponent. -/
def maxExponent : Int := 971

/-- Zero. -/
def zero : Magnitude := ⟨0, minExponent⟩

/-- The number nearest to a ratio; `none` if the ratio is beyond the greatest number. -/
def ofRatio (num den : Nat) : Option Magnitude :=
  if num = 0 then some zero
  else
    let exponent := max (floorLog2 num den - 52) minExponent
    let (n, d) := scale 2 (-exponent) num den
    let mantissa := roundDiv n d
    let rounded : Magnitude :=
      if mantissa = Nat.pow 2 53 then ⟨Nat.pow 2 52, exponent + 1⟩ else ⟨mantissa, exponent⟩
    if maxExponent < rounded.exponent then none else some rounded

/-- A number as a ratio of integers. -/
def toRatio (x : Magnitude) : Nat × Nat := scale 2 x.exponent x.mantissa 1

/-- The product of two numbers. -/
def mul (x y : Magnitude) : Option Magnitude :=
  let (xn, xd) := x.toRatio
  let (yn, yd) := y.toRatio
  ofRatio (xn * yn) (xd * yd)

/-- The quotient of two numbers, the second of which is not zero. -/
def div (x y : Magnitude) : Option Magnitude :=
  let (xn, xd) := x.toRatio
  let (yn, yd) := y.toRatio
  ofRatio (xn * yd) (xd * yn)

end Magnitude

end SqlFragments.Rounding
