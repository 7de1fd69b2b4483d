import Stencil.Decimal.Binary
import Stencil.Expr.Basic
import Stencil.Path.Lookup
import Stencil.Value.Equality
import Stencil.Value.Text
/-!
# Evaluation

An expression has a value in a scope, or fails.  The first segment of every path must be a key of the scope; whatever is
missing below it is null.  Operands are evaluated from left to right, and one that an operator does not select is not
evaluated at all.

Two integers of signed 64-bit size are computed with exactly, and a result that does not fit is a failure; an inexact
quotient is a double.  As soon as one operand is a double or an unsigned integer beyond signed size, both are taken as
doubles.
-/
namespace Stencil

def Value.typeName : Value → String
  | .null => "null"
  | .bool _ => "boolean"
  | .number _ => "number"
  | .string _ => "string"
  | .array _ => "array"
  | .object _ => "object"
  | .date _ => "datetime"
  | .function _ => "function"

inductive Failure
  | emptyPath
  | undefined (root : String)
  | nullOperand
  | operands (op : MathOp) (left right : String)
  | overflow
  | underflow
  | divisionByZero
  | incomparable (op : CompareOp) (left right : String)
  | notNegatable (operand : String)
  | reported (message : String)
deriving DecidableEq

def Failure.message : Failure → String
  | .emptyPath => "empty path"
  | .undefined root => "'" ++ root ++ "' is not defined"
  | .nullOperand => "null value in math operation"
  | .operands op left right => "cannot perform " ++ op.sign ++ " on " ++ left ++ " and " ++ right
  | .overflow => "integer overflow"
  | .underflow => "integer underflow"
  | .divisionByZero => "division by zero"
  | .incomparable op left right => "cannot compare " ++ left ++ " and " ++ right ++ " with " ++ op.sign
  | .notNegatable operand => "cannot negate " ++ operand
  | .reported message => message

/-- A number as it is computed with: an integer of signed size or a double. -/
inductive Operand
  | int (n : Int)
  | float (x : Float)

namespace Operand

def ofNumber : Number → Operand
  | .int n _ => if FitsSigned n then .int n else .float (Float.ofInt n)
  | .float x _ => .float x

def of? (v : Value) : Option Operand := v.number?.map ofNumber

def toFloat : Operand → Float
  | .int n => Float.ofInt n
  | .float x => x

end Operand

def signedOr (failure : Failure) (n : Int) : Except Failure Value :=
  if h : FitsSigned n then .ok (.ofInt n h.fitsWord) else .error failure

namespace MathOp

/-- Arithmetic on integers of signed size.  Quotients and remainders are taken toward zero; the one quotient that does not
fit, -2^63 by -1, fails for the remainder too. -/
def onInts (op : MathOp) (a b : Int) : Except Failure Value :=
  match op with
  | .add => signedOr .overflow (a + b)
  | .sub => signedOr .underflow (a - b)
  | .mul => signedOr .overflow (a * b)
  | .div =>
    if b = 0 then .error .divisionByZero
    else if a.tmod b ≠ 0 then .ok (.ofFloat (Float.ofInt a / Float.ofInt b))
    else signedOr .overflow (a.tdiv b)
  | .rem =>
    if b = 0 then .error .divisionByZero
    else if FitsSigned (a.tdiv b) then signedOr .overflow (a.tmod b)
    else .error .overflow

def onFloats (op : MathOp) (a b : Float) : Except Failure Value :=
  match op with
  | .add => .ok (.ofFloat (a + b))
  | .sub => .ok (.ofFloat (a - b))
  | .mul => .ok (.ofFloat (a * b))
  | .div => if b == 0 then .error .divisionByZero else .ok (.ofFloat (a / b))
  | .rem => if b == 0 then .error .divisionByZero else .ok (.ofFloat (Decimal.remainder a b))

def onOperands (op : MathOp) : Operand → Operand → Except Failure Value
  | .int a, .int b => op.onInts a b
  | a, b => op.onFloats a.toFloat b.toFloat

/-- Arithmetic on values.  An addition with a string on either side joins the texts of both. -/
def apply (op : MathOp) (left right : Value) : Except Failure Value :=
  if op = .add && (left.string?.isSome || right.string?.isSome) then .ok (.string (left.text ++ right.text))
  else if left.isNull || right.isNull then .error .nullOperand
  else
    match Operand.of? left, Operand.of? right with
    | some a, some b => op.onOperands a b
    | _, _ => .error (.operands op left.typeName right.typeName)

end MathOp

/-- Doubles nearer to each other than this, 2^-52, count as equal. -/
def epsilon : Float := Float.ofBits 0x3cb0000000000000

namespace Value

/-- Equality in an expression: integers exactly, other numbers as doubles up to `epsilon`, everything else as values. -/
def looselyEqual (left right : Value) : Bool :=
  match Operand.of? left, Operand.of? right with
  | some (.int a), some (.int b) => a == b
  | some a, some b => (a.toFloat - b.toFloat).abs < epsilon
  | _, _ => left.same right

def orderFloats (a b : Float) : Option Ordering :=
  if a < b then some .lt else if b < a then some .gt else if a == b then some .eq else none

/-- The order of two numbers, two strings by code points, or two dates. -/
def order? (left right : Value) : Option Ordering :=
  match Operand.of? left, Operand.of? right with
  | some (.int a), some (.int b) => some (compare a b)
  | some a, some b => orderFloats a.toFloat b.toFloat
  | _, _ =>
    match left, right with
    | .string a, .string b => some (compare a b)
    | .date a, .date b => some (a.compare b)
    | _, _ => none

/-- Whether a value counts as true: null does not, nor zero, nor the empty string. -/
def truthy : Value → Bool
  | .null => false
  | .bool b => b
  | .number n => n.toFloat != 0
  | .string s => !s.isEmpty
  | _ => true

def negate (v : Value) : Except Failure Value :=
  match Operand.of? v with
  | some (.int n) => signedOr .overflow (-n)
  | some (.float x) => .ok (.ofFloat (-x))
  | none => .error (.notNegatable v.typeName)

end Value

namespace CompareOp

def holds (op : CompareOp) (o : Ordering) : Bool :=
  match op with
  | .eq => o == .eq
  | .ne => o != .eq
  | .lt => o == .lt
  | .le => o != .gt
  | .gt => o == .gt
  | .ge => o != .lt

/-- A comparison of values.  Any two values are equal or not; only some have an order. -/
def apply (op : CompareOp) (left right : Value) : Except Failure Bool :=
  match op with
  | .eq => .ok (left.looselyEqual right)
  | .ne => .ok (!left.looselyEqual right)
  | op =>
    match left.order? right with
    | some o => .ok (op.holds o)
    | none => .error (.incomparable op left.typeName right.typeName)

end CompareOp

namespace Expr

/-- The value of a path: its first segment must be a key of the scope. -/
def resolve (segments : List String) (scope : Value) : Except Failure Value :=
  match segments with
  | [] => .error .emptyPath
  | root :: _ =>
    if (scope.entry? root).isSome then .ok ((scope.descend? segments).getD .null)
    else .error (.undefined root)

mutual

def eval (scope : Value) : Expr → Except Failure Value
  | .path segments => resolve segments scope
  | .constant v => .ok v
  | .math op left right => do
    let a ← left.eval scope
    let b ← right.eval scope
    op.apply a b
  | .compare op left right => do
    let a ← left.eval scope
    let b ← right.eval scope
    return .bool (← op.apply a b)
  | .logic op left right => do
    let a ← left.eval scope
    match op, a.truthy with
    | .and, false | .or, true => return a
    | _, _ => right.eval scope
  | .ternary condition yes no => do
    let c ← condition.eval scope
    if c.truthy then yes.eval scope else no.eval scope
  | .coalesce operands => evalFirst scope operands
  | .negate operand => do
    let v ← operand.eval scope
    v.negate
  | .not operand => do
    let v ← operand.eval scope
    return .bool (!v.truthy)

def evalFirst (scope : Value) : List Expr → Except Failure Value
  | [] => .ok .null
  | e :: rest => do
    let v ← e.eval scope
    if v.isNull then evalFirst scope rest else return v

end

end Expr
end Stencil
