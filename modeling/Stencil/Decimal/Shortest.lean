import Stencil.Decimal.Binary
/-!
# The shortest decimal that reads back

Reading a decimal gives the double next to it, so a double answers for an interval of reals around it: half a step to
either side, and half as much downward where the steps below are half as long.  The two ends belong to it if its mantissa
is even.  `shortest` looks for a point of that interval on the grids of one decimal digit, of two, and so on.  On each
grid only the two neighbours of the double need a look, since if any point of the grid lies in the interval then one of
them does; and seventeen digits always suffice.
-/
namespace Stencil.Decimal

inductive Tie
  | even
  | up
deriving DecidableEq

/-- The real number digits · 10^exponent. -/
structure Scaled where
  digits : Nat
  exponent : Int

/-- A positive number and the interval that reads back to it, all three as multiples of 2^exponent. -/
structure Interval where
  low : Nat
  mid : Nat
  high : Nat
  exponent : Int
  closed : Bool

/-- The interval of a mantissa and exponent, in quarters of a step. -/
def Interval.of (b : Binary) : Interval where
  low := 4 * b.mantissa - (if b.mantissa = 2 ^ 52 ∧ -1074 < b.exponent then 1 else 2)
  mid := 4 * b.mantissa
  high := 4 * b.mantissa + 2
  exponent := b.exponent - 2
  closed := b.mantissa % 2 == 0

namespace Interval

/-- What a multiple of 2^exponent is multiplied by to compare it with a multiple of 10^place. -/
def binaryFactor (i : Interval) (place : Int) : Nat := 2 ^ i.exponent.toNat * 10 ^ (-place).toNat

def decimalFactor (i : Interval) (place : Int) : Nat := 2 ^ (-i.exponent).toNat * 10 ^ place.toNat

/-- Whether t · 10^place lies in the interval. -/
def contains (i : Interval) (place : Int) (t : Nat) : Bool :=
  let point := t * i.decimalFactor place
  let low := i.low * i.binaryFactor place
  let high := i.high * i.binaryFactor place
  if i.closed then low ≤ point && point ≤ high else low < point && point < high

/-- The neighbour of the number on the grid of 10^place from below. -/
def below (i : Interval) (place : Int) : Nat := i.mid * i.binaryFactor place / i.decimalFactor place

/-- The point of the grid of 10^place that lies in the interval and is nearest to the number, if there is one. -/
def onGrid (tie : Tie) (i : Interval) (place : Int) : Option Nat :=
  let t := i.below place
  match i.contains place t, i.contains place (t + 1) with
  | false, false => none
  | true, false => some t
  | false, true => some (t + 1)
  | true, true =>
    let mid := i.mid * i.binaryFactor place
    let short := mid - t * i.decimalFactor place
    let long := (t + 1) * i.decimalFactor place - mid
    if short < long then some t
    else if long < short then some (t + 1)
    else match tie with
      | .even => if t % 2 = 0 then some t else some (t + 1)
      | .up => some (t + 1)

/-- The first of the grids 10^place, 10^(place-1), … that has a point in the interval; the last one if none has. -/
def search (tie : Tie) (i : Interval) : Nat → Int → Scaled
  | 0, place => ⟨i.below place, place⟩
  | more + 1, place =>
    match i.onGrid tie place with
    | some t => ⟨t, place⟩
    | none => search tie i more (place - 1)

end Interval

def width (n : Nat) : Nat := (Nat.toDigits 10 n).length

/-- The place of the leading decimal digit of a / b, for positive a and b. -/
def leadingPlace (a b : Nat) : Int :=
  if b ≤ a then (width (a / b) : Int) - 1
  else
    let d := width (b / a)
    if b ≤ a * 10 ^ (d - 1) then 1 - (d : Int) else -(d : Int)

/-- **The shortest decimal that reads back**, for a positive number. -/
def shortest (tie : Tie) (b : Binary) : Scaled :=
  (Interval.of b).search tie 17 (leadingPlace b.numerator b.denominator)

end Stencil.Decimal
