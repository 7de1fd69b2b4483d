import Stencil.Entries
import Stencil.Instant
import Stencil.Number
/-!
# Values

A value is what a template is written as, what it is rendered against and what rendering gives.  It is JSON with two
kinds more: instants, and functions that are called when a rendering meets them.  A function is known here only by its
identity; what it answers is for the host of a rendering to say.
-/
namespace Stencil

/-- The identity of a function that a value refers to. -/
structure FunctionId where
  index : Nat
deriving DecidableEq

inductive Value
  | null
  | bool (b : Bool)
  | number (n : Number)
  | string (s : String)
  | array (items : List Value)
  | object (entries : List (String × Value))
  | date (moment : Instant)
  | function (f : FunctionId)

/-- The shapes that compiling and rendering tell apart. -/
inductive Kind
  | string
  | array
  | object
  | date
  | null
  | other
deriving DecidableEq

def Kind.word : Kind → String
  | .string => "String"
  | .array => "Array"
  | .object => "Object"
  | .date => "Date"
  | .null => "Null"
  | .other => "Other"

namespace Value

def kind : Value → Kind
  | .string _ => .string
  | .array _ => .array
  | .object _ => .object
  | .date _ => .date
  | .null => .null
  | .bool _ | .number _ | .function _ => .other

def isNull : Value → Bool
  | .null => true
  | _ => false

/-- Objects, arrays and dates take the place of the whole text that they are spliced into. -/
def isComposite : Value → Bool
  | .object _ | .array _ | .date _ => true
  | _ => false

def string? : Value → Option String
  | .string s => some s
  | _ => none

def number? : Value → Option Number
  | .number n => some n
  | _ => none

def bool? : Value → Option Bool
  | .bool b => some b
  | _ => none

def entries? : Value → Option (Entries Value)
  | .object es => some es
  | _ => none

def ofInt (n : Int) (fits : FitsWord n) : Value := .number (.int n fits)

/-- The double as a number; infinities and what is no number become null. -/
def ofFloat (x : Float) : Value :=
  if h : x.isFinite = true then .number (.float x h) else .null

end Value
end Stencil
