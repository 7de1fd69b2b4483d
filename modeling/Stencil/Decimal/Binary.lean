import Stencil.Power
/-!
# Doubles as integers times powers of two

A finite double is a sign, an integer below 2^53 and a power of two.  `decode` reads the three off the bits and `encode`
writes the bits back.  What is exact on the integers is exact on the doubles, and `remainder` is computed so.
-/
namespace Stencil.Decimal

/-- The real number mantissa · 2^exponent, with a sign. -/
structure Binary where
  negative : Bool
  mantissa : Nat
  exponent : Int
deriving DecidableEq

namespace Binary

/-- The sign, mantissa and exponent of a finite double. -/
def decode (x : Float) : Binary :=
  let bits : Nat := x.toBits.toNat
  let field : Nat := bits / 2 ^ 52 % 2 ^ 11
  let fraction : Nat := bits % 2 ^ 52
  { negative := bits / 2 ^ 63 == 1
    mantissa := if field = 0 then fraction else 2 ^ 52 + fraction
    exponent := if field = 0 then -1074 else (field : Int) - 1075 }

/-- The double of a sign, a mantissa below 2^53 and an exponent from -1074 on, if the product is not too large. -/
def encode (b : Binary) : Float :=
  let room := 52 - b.mantissa.log2
  let shift := min room (b.exponent + 1074).toNat
  let mantissa := b.mantissa * 2 ^ shift
  let field := if mantissa < 2 ^ 52 then 0 else (b.exponent - shift + 1075).toNat
  let bits := (if b.negative then 2 ^ 63 else 0) + field * 2 ^ 52 + mantissa % 2 ^ 52
  Float.ofBits (UInt64.ofNat bits)

def numerator (b : Binary) : Nat := b.mantissa * 2 ^ b.exponent.toNat

def denominator (b : Binary) : Nat := 2 ^ (-b.exponent).toNat

def isInteger (b : Binary) : Bool := b.numerator % b.denominator == 0

def floorAbs (b : Binary) : Nat := b.numerator / b.denominator

end Binary

/-- What is left of `x` after taking away whole multiples of `y` toward zero; it has the sign of `x`. -/
def remainder (x y : Float) : Float :=
  let a := Binary.decode x
  let b := Binary.decode y
  let exponent := min a.exponent b.exponent
  let mantissa := (a.mantissa * 2 ^ (a.exponent - exponent).toNat) % (b.mantissa * 2 ^ (b.exponent - exponent).toNat)
  Binary.encode ⟨a.negative, mantissa, exponent⟩

end Stencil.Decimal
