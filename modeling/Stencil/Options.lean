import Stencil.Evaluator
import Stencil.Toml.Reader
/-!
# Options

Whether the defaults of placeholders are evaluated, and by what.  Options are read from a TOML document with the keys
`eval_defaults`, a boolean, and `evaluator`, a name; both may be missing, and other keys do not matter.
-/
namespace Stencil

/-- The evaluators that options can name.  Only the one that is always built in is here: the optional one for scripts, `lua`,
which is off unless it is asked for in the build, is left out, and so its name is refused as it is in a build without it. -/
inductive EvaluatorKind
  | expressions
deriving DecidableEq

def EvaluatorKind.name : EvaluatorKind → String
  | .expressions => "expr"

structure Options where
  evalDefaults : Bool
  evaluator : EvaluatorKind
  custom? : Option Evaluator

inductive OptionsError
  | unreadable
deriving DecidableEq

def OptionsError.message : OptionsError → String
  | .unreadable => "Failed to parse template options"

namespace Options

def default : Options := ⟨false, .expressions, none⟩

/-- The evaluator of defaults; none if they are texts.  A custom one comes before the one that is named. -/
def active? (o : Options) : Option Evaluator :=
  if o.evalDefaults then
    some (o.custom?.getD (match o.evaluator with | .expressions => .expressions))
  else none

/-- The evaluator that a TOML value names: by a string, or by a table of one key that stores nothing. -/
def evaluatorOf? : Toml → Option EvaluatorKind
  | .string name => if name = EvaluatorKind.expressions.name then some .expressions else none
  | .table _ [(name, .table _ [])] => if name = EvaluatorKind.expressions.name then some .expressions else none
  | .table _ [(name, .array [])] => if name = EvaluatorKind.expressions.name then some .expressions else none
  | _ => none

def ofEntries? (es : Entries Toml) : Option Options := do
  let evalDefaults ← match es.get? "eval_defaults" with
    | none => some false
    | some (.bool b) => some b
    | some _ => none
  let evaluator ← match es.get? "evaluator" with
    | none => some .expressions
    | some v => evaluatorOf? v
  return ⟨evalDefaults, evaluator, none⟩

def ofToml (text : String) : Except OptionsError Options :=
  match (Toml.ofText? text).bind ofEntries? with
  | some o => .ok o
  | none => .error .unreadable

end Options
end Stencil
