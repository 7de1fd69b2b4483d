import Stencil.Power
/-!
# Numbers

A number is an integer that a signed or an unsigned 64-bit word can hold, or a finite double.  An integer is never the
same number as a double, and the two zeros of the doubles are the same number.
-/
namespace Stencil

def FitsWord (n : Int) : Prop := -2 ^ 63 ≤ n ∧ n < 2 ^ 64

instance (n : Int) : Decidable (FitsWord n) := inferInstanceAs (Decidable (_ ∧ _))

def FitsSigned (n : Int) : Prop := -2 ^ 63 ≤ n ∧ n < 2 ^ 63

instance (n : Int) : Decidable (FitsSigned n) := inferInstanceAs (Decidable (_ ∧ _))

theorem FitsSigned.fitsWord {n : Int} (h : FitsSigned n) : FitsWord n :=
  ⟨h.1, Int.lt_trans h.2 (by decide)⟩

/-- An integer of word size or a finite double. -/
inductive Number
  | int (n : Int) (fits : FitsWord n)
  | float (x : Float) (finite : x.isFinite = true)
deriving DecidableEq

namespace Number

def isZeroFloat (x : Float) : Bool := x.toBits == 0 || x.toBits == 0x8000000000000000

/-- Whether two numbers are the same: equal integers, or one double, or two zeros. -/
def same : Number → Number → Bool
  | .int a _, .int b _ => a == b
  | .float x _, .float y _ => decide (x = y) || (isZeroFloat x && isZeroFloat y)
  | _, _ => false

def toSigned? : Number → Option Int
  | .int n _ => if FitsSigned n then some n else none
  | .float _ _ => none

def toFloat : Number → Float
  | .int n _ => Float.ofInt n
  | .float x _ => x

end Number
end Stencil
