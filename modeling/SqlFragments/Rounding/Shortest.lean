import SqlFragments.Rounding.Binary

/-! # Shortest decimals

The decimal that stands for a binary fraction: of the decimals that read back as the number those
with the fewest digits, of these the nearest, and of two equally near ones the even one. -/

namespace SqlFragments.Rounding

/-- The number `digits * 10 ^ exponent`. -/
structure Decimal where
  digits : Nat
  exponent : Int
  deriving DecidableEq, Repr

/-- How many decimal digits a number has. -/
def digitCount (n : Nat) : Nat := (Nat.toDigits 10 n).length

/-- The exponent of the greatest power of ten that does not exceed a positive ratio. -/
def floorLog10 (num den : Nat) : Int :=
  if den ≤ num then (digitCount (num / den) : Int) - 1
  else -(digitCount ((den + num - 1) / num - 1) : Int)

/-- Whether one ratio is less than another. -/
def ratioLt (x y : Nat × Nat) : Bool := x.1 * y.2 < y.1 * x.2

/-- Whether one ratio is at most another. -/
def ratioLe (x y : Nat × Nat) : Bool := x.1 * y.2 ≤ y.1 * x.2

namespace Magnitude

/-- The middle between a positive number and the next smaller one. Below a power of two the
numbers lie twice as close. -/
def lowerMiddle (x : Magnitude) : Nat × Nat :=
  if x.mantissa = Nat.pow 2 52 ∧ minExponent < x.exponent then
    scale 2 (x.exponent - 2) (4 * x.mantissa - 1) 1
  else scale 2 (x.exponent - 1) (2 * x.mantissa - 1) 1

/-- The middle between a number and the next greater one. -/
def upperMiddle (x : Magnitude) : Nat × Nat := scale 2 (x.exponent - 1) (2 * x.mantissa + 1) 1

/-- Whether a decimal reads back as a positive number. The middles between two numbers belong to
that with the even mantissa. -/
def readsBack (x : Magnitude) (d : Decimal) : Bool :=
  let value := scale 10 d.exponent d.digits 1
  if x.mantissa % 2 = 0 then ratioLe x.lowerMiddle value && ratioLe value x.upperMiddle
  else ratioLt x.lowerMiddle value && ratioLt value x.upperMiddle

/-- The decimal of at most `count` digits that reads back as a positive number and is nearest to
it, if there is one: one of the number's two neighbours among these decimals. -/
def decimalOfCount (x : Magnitude) (count : Nat) : Option Decimal :=
  let (num, den) := x.toRatio
  let exponent := floorLog10 num den - (count : Int) + 1
  let (n, d) := scale 10 (-exponent) num den
  let below : Decimal := ⟨n / d, exponent⟩
  let above : Decimal := ⟨n / d + 1, exponent⟩
  match x.readsBack below, x.readsBack above with
  | true, true => some (if roundDiv n d = n / d then below else above)
  | true, false => some below
  | false, true => some above
  | false, false => none

/-- The first decimal found with `count` digits or more, up to `limit` further ones. -/
def shortestFrom (x : Magnitude) (count : Nat) : Nat → Option Decimal
  | 0 => none
  | limit + 1 =>
    match x.decimalOfCount count with
    | some d => some d
    | none => shortestFrom x (count + 1) limit

end Magnitude

/-- A decimal without the zeros at its end, of which there are at most `limit`. -/
def Decimal.trimZeros (d : Decimal) : Nat → Decimal
  | 0 => d
  | limit + 1 =>
    if d.digits % 10 = 0 then Decimal.trimZeros ⟨d.digits / 10, d.exponent + 1⟩ limit else d

/-- The shortest decimal of a positive number. Seventeen digits are always enough. -/
def Magnitude.shortest (x : Magnitude) : Decimal :=
  match x.shortestFrom 1 17 with
  | some d => d.trimZeros 17
  | none => ⟨0, 0⟩

/-- Which numbers are written out in full, by the exponent of their first digit. -/
structure Notation where
  lowest : Int
  highest : Int

/-- The text of a decimal: in full, with a digit on both sides of the point, or with an exponent
that has a sign. -/
def Decimal.render (style : Notation) (d : Decimal) : String :=
  let digits := Nat.toDigits 10 d.digits
  let first : Int := d.exponent + (digits.length : Int) - 1
  if style.lowest ≤ first ∧ first ≤ style.highest then
    if 0 ≤ d.exponent then
      String.ofList (digits ++ List.replicate d.exponent.toNat '0') ++ ".0"
    else
      let places := (-d.exponent).toNat
      let padded := List.replicate (places + 1 - digits.length) '0' ++ digits
      let whole := padded.length - places
      String.ofList (padded.take whole) ++ "." ++ String.ofList (padded.drop whole)
  else
    let fraction :=
      match digits.drop 1 with
      | [] => ""
      | more => "." ++ String.ofList more
    let mark := if first < 0 then "e-" else "e+"
    String.ofList (digits.take 1) ++ fraction ++ mark ++ toString first.natAbs

/-- The text of a non-negative number. -/
def Magnitude.render (style : Notation) (x : Magnitude) : String :=
  if x.mantissa = 0 then "0.0" else x.shortest.render style

end SqlFragments.Rounding
