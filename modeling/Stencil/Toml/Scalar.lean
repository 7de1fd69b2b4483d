import Stencil.Decimal.Range
/-!
# TOML numbers, dates and times

The grammar of the scalars that are written without quotes.  Every function takes the longest form of its kind off the
front of a text and gives what follows, or nothing if there is no such form.  A number is read with its value, since one
too large for its kind is refused.
-/
namespace Stencil.Toml

/-- The value of a number, its sign left out where its size alone matters. -/
inductive Numeral
  | whole (n : Int)
  | float (size : Decimal.Scaled)
  | special

/-- Whether a number is in the range of its kind: a whole one in that of signed or of unsigned words of 128 bits, a float
in that of the doubles. -/
def Numeral.inRange : Numeral → Bool
  | .whole n => -2 ^ 127 ≤ n && n < 2 ^ 128
  | .float size => size.isFinite
  | .special => true

namespace Scalar

def isHex (c : Char) : Bool := c.isDigit || ('a' ≤ c && c ≤ 'f') || ('A' ≤ c && c ≤ 'F')

def hexDigit (c : Char) : Nat :=
  if c.isDigit then c.toNat - '0'.toNat
  else if 'a' ≤ c then c.toNat - 'a'.toNat + 10
  else c.toNat - 'A'.toNat + 10

def positional (base : Nat) (digits : List Char) : Nat := digits.foldl (fun n c => base * n + hexDigit c) 0

def moreDigits (isDigit : Char → Bool) : List Char → List Char × List Char
  | '_' :: d :: rest =>
    if isDigit d then
      let (more, left) := moreDigits isDigit rest
      (d :: more, left)
    else ([], '_' :: d :: rest)
  | d :: rest =>
    if isDigit d then
      let (more, left) := moreDigits isDigit rest
      (d :: more, left)
    else ([], d :: rest)
  | [] => ([], [])

def digits (isDigit : Char → Bool) : List Char → Option (List Char × List Char)
  | d :: rest =>
    if isDigit d then
      let (more, left) := moreDigits isDigit rest
      some (d :: more, left)
    else none
  | [] => none

def sign : List Char → Bool × List Char
  | '+' :: rest => (false, rest)
  | '-' :: rest => (true, rest)
  | rest => (false, rest)

def signed (negative : Bool) (n : Nat) : Int := if negative then -n else n

def whole : List Char → Option (List Char × List Char)
  | '0' :: rest => some (['0'], rest)
  | rest => digits Char.isDigit rest

def exponent : List Char → Option (Int × List Char)
  | c :: rest =>
    if c = 'e' || c = 'E' then
      let (negative, rest) := sign rest
      (digits Char.isDigit rest).map fun (ds, left) => (signed negative (positional 10 ds), left)
    else none
  | [] => none

/-- Takes a decimal number behind its sign: with a fraction, an exponent or both it is a float. -/
def decimal (negative : Bool) (s : List Char) : Option (Numeral × List Char) := do
  let (ds, s) ← whole s
  match s with
  | '.' :: rest =>
    let (fraction, s) ← digits Char.isDigit rest
    let (e, s) := (exponent s).getD (0, s)
    return (.float ⟨positional 10 (ds ++ fraction), e - fraction.length⟩, s)
  | s =>
    match exponent s with
    | some (e, s) => return (.float ⟨positional 10 ds, e⟩, s)
    | none => return (.whole (signed negative (positional 10 ds)), s)

def based (base : Nat) (isDigit : Char → Bool) (s : List Char) : Option (Numeral × List Char) :=
  (digits isDigit s).map fun (ds, left) => (.whole (positional base ds), left)

def number (s : List Char) : Option (Numeral × List Char) :=
  match s with
  | '0' :: 'x' :: rest => based 16 isHex rest
  | '0' :: 'o' :: rest => based 8 (fun c => '0' ≤ c && c ≤ '7') rest
  | '0' :: 'b' :: rest => based 2 (fun c => c = '0' || c = '1') rest
  | _ =>
    match sign s with
    | (_, 'i' :: 'n' :: 'f' :: rest) => some (.special, rest)
    | (_, 'n' :: 'a' :: 'n' :: rest) => some (.special, rest)
    | (negative, rest) => decimal negative rest

def isNumber (s : List Char) : Bool :=
  match number s with
  | some (n, []) => n.inRange
  | _ => false

def fixed : Nat → Nat → List Char → Option (Nat × List Char)
  | 0, n, rest => some (n, rest)
  | k + 1, n, c :: rest => if c.isDigit then fixed k (10 * n + (c.toNat - '0'.toNat)) rest else none
  | _ + 1, _, [] => none

def daysIn (year month : Nat) : Nat :=
  if month = 2 then (if year % 4 = 0 && (year % 100 ≠ 0 || year % 400 = 0) then 29 else 28)
  else if month ∈ [4, 6, 9, 11] then 30 else 31

def mark (m : Char) : List Char → Option (List Char)
  | c :: rest => if c = m then some rest else none
  | [] => none

def date (s : List Char) : Option (List Char) := do
  let (year, s) ← fixed 4 0 s
  let s ← mark '-' s
  let (month, s) ← fixed 2 0 s
  let s ← mark '-' s
  let (day, s) ← fixed 2 0 s
  if 1 ≤ month && month ≤ 12 && 1 ≤ day && day ≤ daysIn year month then some s else none

def seconds (s : List Char) : Option (List Char) :=
  match s with
  | ':' :: rest => do
    let (second, s) ← fixed 2 0 rest
    if 60 < second then none
    else
      match s with
      | '.' :: rest =>
        let left := rest.dropWhile Char.isDigit
        if left.length < rest.length then some left else none
      | s => some s
  | s => some s

def hoursMinutes (s : List Char) : Option (List Char) := do
  let (hour, s) ← fixed 2 0 s
  let s ← mark ':' s
  let (minute, s) ← fixed 2 0 s
  if hour ≤ 23 && minute ≤ 59 then some s else none

def time (s : List Char) : Option (List Char) := (hoursMinutes s).bind seconds

def offset (s : List Char) : Option (List Char) :=
  match s with
  | 'Z' :: rest => some rest
  | 'z' :: rest => some rest
  | '+' :: rest => hoursMinutes rest
  | '-' :: rest => hoursMinutes rest
  | s => some s

def isDateEnd (c : Char) : Bool := c = 'T' || c = 't' || c = ' '

/-- Drops a date, a time or both, the latter perhaps with an offset. -/
def moment (s : List Char) : Option (List Char) :=
  match date s with
  | some [] => some []
  | some (c :: rest) => if isDateEnd c then (time rest).bind offset else none
  | none => time s

def valid (s : List Char) : Bool := isNumber s || moment s == some []

end Scalar
end Stencil.Toml
