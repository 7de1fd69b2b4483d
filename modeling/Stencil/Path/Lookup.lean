import Stencil.Path.Segments
import Stencil.Value.Basic
/-!
# Looking up a path

One segment leads from an object to what it stores under that key and from an array to the element of that index.  A
list of segments is followed one by one; no segment at all leads nowhere.  A path given as text is first tried as a
single key of an object, and only then split.
-/
namespace Stencil

namespace Path

def digit? (c : Char) : Option Nat := if c.isDigit then some (c.toNat - '0'.toNat) else none

def digitsValue? : Nat → List Char → Option Nat
  | n, [] => some n
  | n, c :: rest => (digit? c).bind fun d => digitsValue? (10 * n + d) rest

/-- An index: decimal digits, at least one, after an optional plus sign, with a value below 2^64. -/
def index? (segment : String) : Option Nat :=
  let digits := match segment.toList with
    | '+' :: rest => rest
    | cs => cs
  if digits.isEmpty then none
  else (digitsValue? 0 digits).filter (· < 2 ^ 64)

end Path

namespace Value

def child? : Value → String → Option Value
  | .object es, segment => Entries.get? es segment
  | .array items, segment => (Path.index? segment).bind fun i => items[i]?
  | _, _ => none

def follow? : Value → List String → Option Value
  | v, [] => some v
  | v, s :: rest => (v.child? s).bind fun w => follow? w rest

/-- Where a list of segments leads; an empty list leads nowhere. -/
def descend? (v : Value) (segments : List String) : Option Value :=
  if segments.isEmpty then none else v.follow? segments

def entry? (v : Value) (key : String) : Option Value :=
  v.entries?.bind fun es => es.get? key

/-- **What a path leads to.**  An entry whose key is the whole text comes before the text's segments. -/
def get? (v : Value) (path : String) : Option Value :=
  if path.isEmpty then none
  else (v.entry? path).or (v.descend? (Path.segments path))

theorem get?_object (es : Entries Value) (path : String) : (object es).get? path =
    if path.isEmpty then none else (es.get? path).or ((object es).descend? (Path.segments path)) := rfl

end Value
end Stencil
