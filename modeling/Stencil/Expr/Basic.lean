import Stencil.Value.Basic
/-!
# Expressions

The language in which defaults are computed: paths into a scope, constants, arithmetic, comparison, short-circuit logic,
the conditional, and the choice of the first operand that is not null.
-/
namespace Stencil

inductive MathOp
  | add
  | sub
  | mul
  | div
  | rem
deriving DecidableEq

def MathOp.sign : MathOp → String
  | .add => "+"
  | .sub => "-"
  | .mul => "*"
  | .div => "/"
  | .rem => "%"

inductive CompareOp
  | eq
  | ne
  | lt
  | le
  | gt
  | ge
deriving DecidableEq

def CompareOp.sign : CompareOp → String
  | .eq => "=="
  | .ne => "!="
  | .lt => "<"
  | .le => "<="
  | .gt => ">"
  | .ge => ">="

inductive LogicOp
  | and
  | or
deriving DecidableEq

def LogicOp.sign : LogicOp → String
  | .and => "&&"
  | .or => "||"

inductive Expr
  | path (segments : List String)
  | constant (v : Value)
  | math (op : MathOp) (left right : Expr)
  | compare (op : CompareOp) (left right : Expr)
  | logic (op : LogicOp) (left right : Expr)
  | ternary (condition yes no : Expr)
  | coalesce (operands : List Expr)
  | negate (operand : Expr)
  | not (operand : Expr)

end Stencil
