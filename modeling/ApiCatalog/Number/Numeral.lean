/-!
# Decimal numerals as written

A numeral has a sign, digits before the point, perhaps digits after it, and perhaps a power of
ten. The digits before the point are not empty and start with `0` only if there is no other.
-/

namespace ApiCatalog.Number

/-- A decimal numeral, digit by digit. -/
structure Numeral where
  negative : Bool
  whole : List Nat
  /-- The digits after the point, if there is a point. -/
  fraction : Option (List Nat)
  /-- The power of ten, if one is written. -/
  exponent : Option Int
deriving Repr, DecidableEq

namespace Numeral

/-- The values of the leading decimal digits. -/
def leadingDigits (cs : List Char) : List Nat :=
  (cs.takeWhile Char.isDigit).map fun c => c.toNat - '0'.toNat

/-- What follows the leading decimal digits. -/
def afterDigits (cs : List Char) : List Char := cs.dropWhile Char.isDigit

/-- The number that a row of digits stands for. -/
def valueOf (digits : List Nat) : Nat := digits.foldl (fun n d => 10 * n + d) 0

/-- Reads the power of ten at the end of a numeral; `none` if it is malformed. -/
def readExponent? : List Char → Option (Option Int)
  | [] => some none
  | e :: cs =>
    if e = 'e' ∨ e = 'E' then
      let (negative, digits) := match cs with
        | '+' :: rest => (false, rest)
        | '-' :: rest => (true, rest)
        | rest => (false, rest)
      if digits.isEmpty || !(afterDigits digits).isEmpty then none
      else
        let n : Int := valueOf (leadingDigits digits)
        some (some (if negative then -n else n))
    else none

/-- Reads a whole text as a numeral. -/
def ofChars? (text : List Char) : Option Numeral :=
  let (negative, cs) := match text with
    | '-' :: rest => (true, rest)
    | rest => (false, rest)
  let whole := leadingDigits cs
  if whole.isEmpty || (whole.head? == some 0 && whole.length ≠ 1) then none
  else match afterDigits cs with
    | '.' :: rest =>
      let fraction := leadingDigits rest
      if fraction.isEmpty then none
      else (readExponent? (afterDigits rest)).map fun e => ⟨negative, whole, some fraction, e⟩
    | rest => (readExponent? rest).map fun e => ⟨negative, whole, none, e⟩

end Numeral

end ApiCatalog.Number
