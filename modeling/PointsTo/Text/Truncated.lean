import PointsTo.Text.Numeral

/-!
# Decimal fractions read as integers

A number written with a point or an exponent is first rounded to the nearest
binary number of fifty-three significant digits, ties to even, and then cut
off towards zero.  The result must be at most `2 ^ 63`; what does not fit in
sixty-four bits reads as the least integer.
-/

namespace PointsTo.Text

/-- A decimal number: `digits * 10 ^ exponent` with a sign. -/
structure Decimal where
  negative : Bool
  digits : Nat
  exponent : Int

/-- `numerator / denominator` rounded to the nearest integer, ties to even. -/
def roundedQuotient (numerator denominator : Nat) : Nat :=
  let quotient := numerator / denominator
  let remainder := numerator % denominator
  if 2 * remainder < denominator then quotient
  else if denominator < 2 * remainder then quotient + 1
  else quotient + quotient % 2

/--
The binary number nearest to `numerator / denominator`, as a significand of at
most fifty-three digits and an exponent of two.
-/
def nearestBinary (numerator denominator : Nat) : Nat × Int :=
  let magnitude : Int := (Nat.log2 numerator : Int) - Nat.log2 denominator
  let scaled (shift : Int) : Nat :=
    roundedQuotient (numerator * Nat.pow 2 (-shift).toNat)
      (denominator * Nat.pow 2 shift.toNat)
  let shift := magnitude - 53
  let guess := scaled shift
  if guess < Nat.pow 2 53 then (guess, shift)
  else (scaled (shift + 1), shift + 1)

/-- The largest power of ten that a number in range may have. -/
def maxDecimalExponent : Int := 310

namespace Decimal

/--
The magnitude after rounding, cut off towards zero; `none` if the number is
out of range.
-/
def truncated? (decimal : Decimal) : Option Nat :=
  if decimal.digits = 0 then some 0
  else
    let width : Int := (Nat.toDigits 10 decimal.digits).length
    if maxDecimalExponent < width + decimal.exponent then none
    else if width + decimal.exponent < -2 then some 0
    else
      let numerator := decimal.digits * Nat.pow 10 decimal.exponent.toNat
      let denominator := Nat.pow 10 (-decimal.exponent).toNat
      let (significand, shift) := nearestBinary numerator denominator
      let value :=
        significand * Nat.pow 2 shift.toNat / Nat.pow 2 (-shift).toNat
      if value < Nat.pow 2 1024 then some value else none

/-- The integer that a number in range reads as. -/
def integer? (negative : Bool) (magnitude : Nat) : Option Int :=
  if magnitude < Nat.pow 2 63 then some (signed negative magnitude)
  else if negative || magnitude = Nat.pow 2 63 then some minInteger
  else none

end Decimal

/-- Read an exponent after its mark. -/
def exponent? : List Char → Option Int
  | [] => some 0
  | mark :: rest =>
      if mark = 'e' ∨ mark = 'E' then do
        let (negative, digits) := sign rest
        return signed negative (← digits? 10 digits)
      else none

/--
Read a decimal number: an optional sign, digits with an optional point, and an
optional exponent.  A point at the start must be followed by a digit.
-/
def readDecimal? (text : List Char) : Option Decimal := do
  let (negative, unsigned) := sign text
  let whole := unsigned.takeWhile Char.isDigit
  let rest := unsigned.dropWhile Char.isDigit
  let (fraction, rest) := match rest with
    | '.' :: after => (after.takeWhile Char.isDigit, after.dropWhile Char.isDigit)
    | _ => ([], rest)
  let exponent ← exponent? rest
  let digits ← digits? 10 (whole ++ fraction)
  return { negative, digits, exponent := exponent - fraction.length }

end PointsTo.Text
