/-!
# Magnitudes of 64-bit binary numbers

A magnitude is `mantissa * 2 ^ exponent` with at most 53 bits of mantissa and an exponent from
−1074 to 971. Every result is the exact quotient rounded once, to the nearest magnitude and on a
tie to the one with the even mantissa, in natural-number arithmetic. A quotient that rounds past
the largest magnitude has no result.
-/

namespace ApiCatalog.Number

/-- The value `mantissa * 2 ^ exponent`, with as many mantissa bits as the range allows. -/
structure Magnitude where
  mantissa : Nat
  exponent : Int
deriving Repr, DecidableEq

namespace Magnitude

/-- The exponent of the smallest magnitudes. -/
def lowestExponent : Int := -1074

/-- The exponent of the largest magnitudes. -/
def highestExponent : Int := 971

/-- Mantissas stay below this bound. -/
def mantissaBound : Nat := Nat.pow 2 53

/-- The least mantissa that has all its bits. -/
def leastFullMantissa : Nat := Nat.pow 2 52

/-- The magnitude zero. -/
def zero : Magnitude := ⟨0, lowestExponent⟩

/-- Whether the value is zero. -/
def isZero (x : Magnitude) : Bool := x.mantissa == 0

/-- The quotient rounded to the nearest natural number, a tie to the even one. -/
def divideToEven (num den : Nat) : Nat :=
  let whole := num / den
  let rest := num % den
  if den < 2 * rest || (den == 2 * rest && whole % 2 == 1) then whole + 1 else whole

/-- Numerator and denominator of `num / den / 2 ^ exponent`. -/
def scaleDown (num den : Nat) (exponent : Int) : Nat × Nat :=
  if 0 ≤ exponent then (num, den * Nat.pow 2 exponent.toNat)
  else (num * Nat.pow 2 (-exponent).toNat, den)

/-- The exponent at which the mantissa of `num / den` has 53 bits, or the lowest one. -/
def exponentFor (num den : Nat) : Int :=
  let estimate := max ((num.log2 : Int) - (den.log2 : Int) - 53) lowestExponent
  let (n, d) := scaleDown num den estimate
  if n < mantissaBound * d then estimate else estimate + 1

/-- The magnitude nearest to `num / den`, if it is not too large. -/
def ofRatio? (num den : Nat) : Option Magnitude :=
  if num = 0 then some zero
  else
    let exponent := exponentFor num den
    let (n, d) := scaleDown num den exponent
    let mantissa := divideToEven n d
    let rounded : Magnitude :=
      if mantissa < mantissaBound then ⟨mantissa, exponent⟩
      else ⟨leastFullMantissa, exponent + 1⟩
    if rounded.exponent ≤ highestExponent then some rounded else none

/-- Numerator and denominator of the value. -/
def ratio (x : Magnitude) : Nat × Nat :=
  if 0 ≤ x.exponent then (x.mantissa * Nat.pow 2 x.exponent.toNat, 1)
  else (x.mantissa, Nat.pow 2 (-x.exponent).toNat)

/-- The rounded product. -/
def mul? (x y : Magnitude) : Option Magnitude :=
  let (xn, xd) := x.ratio
  let (yn, yd) := y.ratio
  ofRatio? (xn * yn) (xd * yd)

/-- The rounded quotient, for a divisor that is not zero. -/
def div? (x y : Magnitude) : Option Magnitude :=
  let (xn, xd) := x.ratio
  let (yn, yd) := y.ratio
  ofRatio? (xn * yd) (xd * yn)

theorem divideToEven_of_dvd {num den : Nat} (hd : 0 < den) (h : den ∣ num) :
    divideToEven num den = num / den := by
  have hr : num % den = 0 := Nat.mod_eq_zero_of_dvd h
  simp [divideToEven, hr]
  omega

@[simp] theorem ofRatio?_zero (den : Nat) : ofRatio? 0 den = some zero := by
  simp [ofRatio?]

end Magnitude

end ApiCatalog.Number
