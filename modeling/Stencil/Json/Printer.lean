import Stencil.Decimal.Form
import Stencil.Json.Basic
/-!
# JSON texts

The compact text of JSON data: no spaces, entries in their order, shortest doubles.  In a string only the quote, the
backslash and the control characters are escaped, the latter by their letter or else as four lower-case hexadecimal
digits.
-/
namespace Stencil

/-- Doubles are positional from 1e-5 up to 1e16, and of two equally near decimals the one with the even digit is written. -/
def Json.doubles : Decimal.Form := ⟨-4, 16, .even⟩

def Number.jsonText : Number → String
  | .int n _ => toString n
  | .float x _ => Json.doubles.text x

namespace Json

def escape (c : Char) : List Char :=
  if c = '"' then ['\\', '"']
  else if c = '\\' then ['\\', '\\']
  else if c = '\n' then ['\\', 'n']
  else if c = '\r' then ['\\', 'r']
  else if c = '\t' then ['\\', 't']
  else if c = '\x08' then ['\\', 'b']
  else if c = '\x0c' then ['\\', 'f']
  else if c.toNat < 0x20 then
    ['\\', 'u', '0', '0', Nat.digitChar (c.toNat / 16), Nat.digitChar (c.toNat % 16)]
  else [c]

def quote (s : String) : String := String.ofList ('"' :: (s.toList.flatMap escape ++ ['"']))

mutual

def text : Json → String
  | .null => "null"
  | .bool b => if b then "true" else "false"
  | .number n => n.jsonText
  | .string s => quote s
  | .array items => "[" ++ itemsText true items ++ "]"
  | .object es => "\x7b" ++ entriesText true es ++ "\x7d"

def itemsText : Bool → List Json → String
  | _, [] => ""
  | first, j :: rest => (if first then "" else ",") ++ text j ++ itemsText false rest

def entriesText : Bool → List (String × Json) → String
  | _, [] => ""
  | first, (k, j) :: rest => (if first then "" else ",") ++ quote k ++ ":" ++ text j ++ entriesText false rest

end

end Json
end Stencil
