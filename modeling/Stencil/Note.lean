import Stencil.Evaluator
/-!
# Notes

What compiling and rendering have to say about their work beside their result.  A note never changes the result.
-/
namespace Stencil

inductive Severity
  | debug
  | trace
deriving DecidableEq

def Severity.word : Severity → String
  | .debug => "DEBUG"
  | .trace => "TRACE"

inductive Note
  | compiling (kind : Kind)
  | compiled (kind : Kind) (occurrences : Nat)
  | defaultAsText (key : String) (error : EvalError)
deriving DecidableEq

namespace Note

def severity : Note → Severity
  | .compiling _ => .trace
  | .compiled _ _ | .defaultAsText _ _ => .debug

def message : Note → String
  | .compiling kind => "Compiling " ++ kind.word ++ " value"
  | .compiled kind n => "Compiled " ++ kind.word ++ " template with " ++ toString n ++ " parameter occurrence(s)"
  | .defaultAsText key error => "Default for '" ++ key ++ "' used as text: " ++ error.message

def line (n : Note) : String := n.severity.word ++ ": " ++ n.message

end Note
end Stencil
