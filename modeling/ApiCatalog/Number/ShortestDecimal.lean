import ApiCatalog.Number.Magnitude

/-!
# The shortest decimal that reads back

A decimal reads back as a magnitude if it lies in the interval of reals that round to it: half way
to either neighbour, the ends included exactly if the mantissa is even. The shortest decimal is a
multiple of the largest power of ten that has a multiple in the interval; of two such multiples
the nearer to the value is taken, and on a tie the even one.
-/

namespace ApiCatalog.Number

/-- The value `digits * 10 ^ exponent`. -/
structure Decimal where
  digits : Nat
  exponent : Int
deriving Repr, DecidableEq

namespace Decimal

/-- The interval that rounds to a magnitude, as multiples of a quarter of the mantissa's unit. -/
structure Interval where
  low : Nat
  value : Nat
  high : Nat
  /-- Whether both ends belong to the interval. -/
  closed : Bool
deriving Repr, DecidableEq

/-- The interval of reals that round to `x`. Below a power of two the neighbour is half as far. -/
def Interval.around (x : Magnitude) : Interval :=
  let nearBelow :=
    x.mantissa == Magnitude.leastFullMantissa && Magnitude.lowestExponent < x.exponent
  { low := 4 * x.mantissa - (if nearBelow then 1 else 2)
    value := 4 * x.mantissa
    high := 4 * x.mantissa + 2
    closed := x.mantissa % 2 == 0 }

/-- The interval with all its bounds multiplied by `factor`. -/
def Interval.scale (i : Interval) (factor : Nat) : Interval :=
  { i with low := i.low * factor, value := i.value * factor, high := i.high * factor }

/-- Whether `n` lies in the interval. -/
def Interval.covers (i : Interval) (n : Nat) : Bool :=
  if i.closed then i.low ≤ n && n ≤ i.high else i.low < n && n < i.high

/-- Of the two multiples of `unit` next to the value, the one in the interval nearer to the
value. -/
def Interval.multiple? (i : Interval) (unit : Nat) : Option Nat :=
  let below := i.value / unit
  let above := below + 1
  match i.covers (below * unit), i.covers (above * unit) with
  | true, true =>
    let down := i.value - below * unit
    let up := above * unit - i.value
    if up < down || (up == down && below % 2 == 1) then some above else some below
  | true, false => some below
  | false, true => some above
  | false, false => none

/-- The multiple of `10 ^ place` that reads back as `x`, if there is one. -/
def atPlace? (x : Magnitude) (place : Int) : Option Nat :=
  let quarter := x.exponent - 2
  let factor := Nat.pow 2 quarter.toNat * Nat.pow 10 (-place).toNat
  let unit := Nat.pow 10 place.toNat * Nat.pow 2 (-quarter).toNat
  ((Interval.around x).scale factor).multiple? unit

/-- Tries the places `steps - 324` and below in turn. -/
def coarsest (x : Magnitude) : Nat → Decimal
  | 0 => ⟨(atPlace? x (-324)).getD 0, -324⟩
  | steps + 1 =>
    match atPlace? x ((steps : Int) + 1 - 324) with
    | some digits => ⟨digits, (steps : Int) + 1 - 324⟩
    | none => coarsest x steps

/-- The shortest decimal that reads back as `x`, which is not zero. -/
def shortest (x : Magnitude) : Decimal := coarsest x 632

end Decimal

end ApiCatalog.Number
