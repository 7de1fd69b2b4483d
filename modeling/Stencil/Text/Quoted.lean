import Stencil.Text.DefaultIgnorable
import Stencil.Text.GraphemeExtend
import Stencil.Text.Unprintable
/-!
# Quoted text for a reader's eye

A text in double quotes in which everything shows.  The quote and the backslash take a backslash, five controls have a
letter or digit, and every other character that prints nothing, leaves no mark or joins the one before it is written as
`\u` with its code point in braces.
-/
namespace Stencil.Text

def escapeVisible (c : Char) : List Char :=
  if c = '"' then ['\\', '"']
  else if c = '\\' then ['\\', '\\']
  else if c = '\n' then ['\\', 'n']
  else if c = '\r' then ['\\', 'r']
  else if c = '\t' then ['\\', 't']
  else if c.toNat = 0 then ['\\', '0']
  else if isUnprintable c || isDefaultIgnorable c || isGraphemeExtend c then
    ['\\', 'u', '{'] ++ Nat.toDigits 16 c.toNat ++ ['}']
  else [c]

/-- A text in double quotes, with what would not show escaped. -/
def quoted (s : String) : String := String.ofList ('"' :: (s.toList.flatMap escapeVisible ++ ['"']))

end Stencil.Text
