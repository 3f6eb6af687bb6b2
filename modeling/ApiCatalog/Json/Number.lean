import ApiCatalog.Number.Numeral
import ApiCatalog.Number.ShortestDecimal

/-!
# Numbers of JSON texts

A numeral without point and power of ten is an integer if it fits in 64 bits, unsigned from zero
on and signed below; `-0` and all other numerals are binary floating-point numbers, and a numeral
beyond their range is no number. A float is read from as many leading digits as fit in 64 bits: it
is scaled by a rounded power of ten in one multiplication or division, and by further divisions by
`10 ^ 308` where the power is smaller than that.
-/

namespace ApiCatalog.Json

open ApiCatalog.Number

/-- A number: an integer of at most 64 bits, or a sign and a binary magnitude. -/
inductive Number where
  | integer (n : Int)
  | float (negative : Bool) (magnitude : Magnitude)
deriving Repr, DecidableEq

namespace Number

/-! ## Reading -/

/-- Values below this bound fit in 64 bits. -/
def wordBound : Nat := Nat.pow 2 64

/-- Appends digits to `n` while the result fits in 64 bits; the digits left over follow. -/
def takeDigits (n : Nat) : List Nat → Nat × List Nat
  | [] => (n, [])
  | d :: ds => if 10 * n + d < wordBound then takeDigits (10 * n + d) ds else (n, d :: ds)

/-- The leading digits of a numeral and the power of ten that they are to be multiplied by. Digits
before the point that are left over count in the power, those after it are ignored. -/
def significand (numeral : Numeral) : Nat × Int :=
  let (n, left) := takeDigits 0 numeral.whole
  let fraction := numeral.fraction.getD []
  let (m, ignored) := takeDigits n fraction
  (m, (left.length : Int) - ((fraction.length - ignored.length : Nat) : Int)
    + numeral.exponent.getD 0)

/-- The largest power of ten of a single scaling. -/
def scalingLimit : Nat := 308

/-- The rounded power of ten. -/
def tenTo? (n : Nat) : Option Magnitude := Magnitude.ofRatio? (Nat.pow 10 n) 1

/-- Divides by `10 ^ n`, in steps if `n` is beyond the limit. -/
def divideByTens (x : Magnitude) (n : Nat) : Option Magnitude :=
  if n ≤ scalingLimit then do x.div? (← tenTo? n)
  else if x.isZero then some x
  else do divideByTens (← x.div? (← tenTo? scalingLimit)) (n - scalingLimit)
termination_by n
decreasing_by simp [scalingLimit] at *; omega

/-- The magnitude `n * 10 ^ exponent`, if it is in range. -/
def magnitude? (n : Nat) (exponent : Int) : Option Magnitude := do
  let x ← Magnitude.ofRatio? n 1
  if exponent < 0 then divideByTens x exponent.natAbs
  else if exponent.toNat ≤ scalingLimit then x.mul? (← tenTo? exponent.toNat)
  else if x.isZero then some x
  else none

/-- The integer that a numeral is, if it is one. -/
def integer? (numeral : Numeral) : Option Int :=
  if numeral.fraction.isSome || numeral.exponent.isSome then none
  else
    let n := Numeral.valueOf numeral.whole
    if numeral.negative then
      if 0 < n ∧ n ≤ Nat.pow 2 63 then some (-(n : Int)) else none
    else if n < wordBound then some n else none

/-- The number that a numeral stands for, if it is in range. -/
def ofNumeral? (numeral : Numeral) : Option Number :=
  match integer? numeral with
  | some n => some (.integer n)
  | none =>
    let (n, exponent) := significand numeral
    (magnitude? n exponent).map (.float numeral.negative)

/-! ## Writing -/

/-- The digits of a natural number. -/
def digitsOf (n : Nat) : List Char := Nat.toDigits 10 n

/-- The digits without trailing zeros, of which one is always kept. -/
def withoutTrailingZeros (digits : List Char) : List Char :=
  match (digits.reverse.dropWhile (· == '0')).reverse with
  | [] => ['0']
  | ds => ds

/-- The exponents, of the first digit, at which a float is written without a power of ten. -/
def isPositional (exponent : Int) : Bool := -5 ≤ exponent && exponent ≤ 15

/-- Writes the digits with a point after the first `places` of them, filled up by zeros. -/
def writePositional (digits : List Char) (places : Int) : List Char :=
  if places ≤ 0 then
    ['0', '.'] ++ List.replicate (-places).toNat '0' ++ digits
  else
    let whole := digits.take places.toNat
    let fraction := digits.drop places.toNat
    whole ++ List.replicate (places.toNat - whole.length) '0' ++ ['.']
      ++ (if fraction.isEmpty then ['0'] else fraction)

/-- Writes the digits with a point after the first and a power of ten with its sign. -/
def writeScientific (digits : List Char) (exponent : Int) : List Char :=
  digits.take 1 ++ (if digits.length ≤ 1 then [] else '.' :: digits.drop 1)
    ++ ['e', if exponent < 0 then '-' else '+'] ++ digitsOf exponent.natAbs

/-- The shortest text of a magnitude, which always shows that it is no integer. -/
def writeMagnitude (x : Magnitude) : List Char :=
  if x.isZero then ['0', '.', '0']
  else
    let decimal := Decimal.shortest x
    let all := digitsOf decimal.digits
    let exponent := decimal.exponent + (all.length : Int) - 1
    let digits := withoutTrailingZeros all
    if isPositional exponent then writePositional digits (exponent + 1)
    else writeScientific digits exponent

/-- The text of a number. -/
def write : Number → List Char
  | .integer n => (if n < 0 then ['-'] else []) ++ digitsOf n.natAbs
  | .float negative x => (if negative then ['-'] else []) ++ writeMagnitude x

end Number

end ApiCatalog.Json
