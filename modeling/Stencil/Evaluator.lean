import Stencil.Expr.Eval
import Stencil.Expr.Parser
/-!
# Evaluators

An evaluator turns the text of a default and a scope into a value, or fails.  The one that is built in reads the text as
an expression.
-/
namespace Stencil

inductive EvalError
  | unreadable (error : SyntaxError)
  | failed (failure : Failure)
deriving DecidableEq

def EvalError.message : EvalError → String
  | .unreadable e => "invalid expression " ++ e.text
  | .failed f => "evaluation failed: " ++ f.message

/-- Computes a value from a text and a scope.  An evaluator is taken to be a function of the two: one with a state of its own,
which answers the same question in different ways, is not covered. -/
abbrev Evaluator := String → Value → Except EvalError Value

def Evaluator.expressions : Evaluator := fun source scope =>
  match Expr.parse source with
  | .error e => .error (.unreadable e)
  | .ok e => (e.eval scope).mapError .failed

end Stencil
