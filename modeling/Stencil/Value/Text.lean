import Stencil.Json.Printer
/-!
# Values as text

What a value looks like when it is spliced into a text.  Strings stand for themselves; whole doubles are written without
a fraction as long as they are below 10^21; arrays and objects are written as JSON.
-/
namespace Stencil

def Number.wholeLimit : Nat := 10 ^ 21

/-- The text of a number: a whole double below the limit has all its digits and no fraction. -/
def Number.text : Number → String
  | .float x h => (Decimal.wholeText? wholeLimit x).getD (Number.jsonText (.float x h))
  | n => n.jsonText

def Value.text : Value → String
  | .null => "null"
  | .bool b => if b then "true" else "false"
  | .number n => n.text
  | .string s => s
  | v@(.array _) | v@(.object _) => v.toJson.text
  | .date t => t.text
  | .function _ => "[function]"

end Stencil
