import Stencil.Value.Basic
/-!
# Equality of values

Two values are the same if they are of one shape and their parts are the same.  Numbers are compared by `Number.same`,
functions by identity, arrays element by element.  The order of an object's entries does not count: two objects are the
same if they have equally many entries and every key of the first stands in the second over the same value.
-/
namespace Stencil.Value

mutual

def same : Value → Value → Bool
  | .null, .null => true
  | .bool a, .bool b => a == b
  | .number a, .number b => a.same b
  | .string a, .string b => a == b
  | .array as, .array bs => sameItems as bs
  | .object as, .object bs => as.length == bs.length && sameEntries as bs
  | .date a, .date b => decide (a = b)
  | .function f, .function g => decide (f = g)
  | _, _ => false

def sameItems : List Value → List Value → Bool
  | [], [] => true
  | a :: as, b :: bs => same a b && sameItems as bs
  | _, _ => false

def sameEntries : List (String × Value) → List (String × Value) → Bool
  | [], _ => true
  | (k, a) :: as, bs =>
    (match Entries.get? bs k with
      | some b => same a b
      | none => false) && sameEntries as bs

end

end Stencil.Value
