import Stencil.Decimal.Shortest
/-!
# Written doubles

A double is written with the fewest digits that read back.  A `Form` says where the positional way of writing ends: the
*point* of a number is the place of its decimal point counted from its first digit, so that 0.5 has point 0 and 50 has
point 2.  Outside the limits one digit stands before the point and the exponent after the letter `e`.  A whole number in
positional form keeps `.0`.
-/
namespace Stencil.Decimal

/-- Where positional writing ends, and which of two equally near decimals is written. -/
structure Form where
  leastPoint : Int
  greatestPoint : Int
  tie : Tie

def significant (n : Nat) : List Char := ((Nat.toDigits 10 n).reverse.dropWhile (· = '0')).reverse

def Form.place (form : Form) (digits : List Char) (point : Int) : List Char :=
  let n : Int := digits.length
  if form.leastPoint ≤ point ∧ point ≤ 0 then
    '0' :: '.' :: (List.replicate (-point).toNat '0' ++ digits)
  else if 0 < point ∧ point ≤ form.greatestPoint then
    if n ≤ point then digits ++ List.replicate (point - n).toNat '0' ++ ['.', '0']
    else digits.take point.toNat ++ '.' :: digits.drop point.toNat
  else
    let exponent := 'e' :: (toString (point - 1)).toList
    match digits with
    | [] => exponent
    | [d] => d :: exponent
    | d :: more => d :: '.' :: (more ++ exponent)

def Form.text (form : Form) (x : Float) : String :=
  let b := Binary.decode x
  let sign := if b.negative then ['-'] else []
  if b.mantissa = 0 then String.ofList (sign ++ ['0', '.', '0'])
  else
    let s := shortest form.tie b
    String.ofList (sign ++ form.place (significant s.digits) (s.exponent + width s.digits))

/-- A whole double below a limit in size, written with all its digits; none for any other. -/
def wholeText? (limit : Nat) (x : Float) : Option String :=
  let b := Binary.decode x
  if b.isInteger && b.floorAbs < limit then
    some ((if b.negative then "-" else "") ++ toString b.floorAbs)
  else none

end Stencil.Decimal
