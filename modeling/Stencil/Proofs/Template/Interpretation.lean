import Stencil.Proofs.Text.Puts
import Stencil.Template.Basic
/-!
# Interpreting a value directly

What a template value comes to against a context when it is read as it stands, without compiling it.  The rules lead from
a value and the calls made so far to a result and the calls made then, the latest first.  The result is a value, or the
call that failed and ended everything.

* An array comes to its elements, from first to last.
* An object comes to its entries, from first to last: the key is read, then the value, and then the value is stored under
  the key's text, among the entries stored before.
* A text comes to itself with its placeholders filled in, from left to right.  An object, an array or a date takes the
  place of the whole text and ends it, and so does any value if the text is a single placeholder.
* Everything else is left as it is.
-/
namespace Stencil.Direct

/-! ## Placeholders -/

def Missing (s : Setting) (p : Parameter) : Prop := ∀ v, s.context.get? p.key = some v → v = .null

/-- What a parameter stands for before any call: what its key leads to, or its default. -/
inductive Stands (s : Setting) (p : Parameter) : Value → Prop
  | found {v : Value} (h : s.context.get? p.key = some v) (hv : v ≠ .null) : Stands s p v
  | computed {raw : String} {evaluate : Evaluator} {v : Value} (h : Missing s p) (hd : p.default? = some raw)
      (he : s.evaluator? = some evaluate) (hv : evaluate raw s.context = .ok v) : Stands s p v
  | uncomputed {raw : String} {evaluate : Evaluator} {e : EvalError} (h : Missing s p) (hd : p.default? = some raw)
      (he : s.evaluator? = some evaluate) (hv : evaluate raw s.context = .error e) : Stands s p (.string raw)
  | raw {raw : String} (h : Missing s p) (hd : p.default? = some raw) (he : s.evaluator? = none) :
      Stands s p (.string raw)
  | nothing (h : Missing s p) (hd : p.default? = none) : Stands s p .null

inductive Resolves (s : Setting) (p : Parameter) :
    List FunctionId → Except CallError Value → List FunctionId → Prop
  | plain {calls : List FunctionId} {v : Value} (h : Stands s p v) (hv : ∀ f, v ≠ .function f) :
      Resolves s p calls (.ok v) calls
  | answered {calls : List FunctionId} {f : FunctionId} {v : Value} (h : Stands s p (.function f))
      (ha : s.host calls f = .ok v) : Resolves s p calls (.ok v) (f :: calls)
  | failed {calls : List FunctionId} {f : FunctionId} {message : String} (h : Stands s p (.function f))
      (ha : s.host calls f = .error message) : Resolves s p calls (.error ⟨p.key, message⟩) (f :: calls)

/-! ## Texts -/

inductive Composite : Value → Prop
  | object (es : List (String × Value)) : Composite (.object es)
  | array (items : List Value) : Composite (.array items)
  | date (t : Instant) : Composite (.date t)

/-- The text has one placeholder, begins with two opening braces and ends with two closing ones. -/
structure IsSingle (text : String) : Prop where
  one : ∃ p, Placeholder.scan text = [p]
  opens : ['{', '{'] <+: text.toList
  closes : ['}', '}'] <:+ text.toList

/-- Filling in placeholders from left to right; `whole` says that any value takes the place of the whole text. -/
inductive Fills (s : Setting) (whole : Prop) :
    List Char → List Placeholder → List FunctionId → Except CallError Value → List FunctionId → Prop
  | done {out : List Char} {calls : List FunctionId} :
      Fills s whole out [] calls (.ok (.string (String.ofList out))) calls
  | stop {out : List Char} {p : Placeholder} {ps : List Placeholder} {calls k : List FunctionId} {v : Value}
      (h : Resolves s p.parameter calls (.ok v) k) (hv : Composite v ∨ whole) :
      Fills s whole out (p :: ps) calls (.ok v) k
  | put {out out' : List Char} {p : Placeholder} {ps : List Placeholder} {calls i k : List FunctionId} {v : Value}
      {r : Except CallError Value} (h : Resolves s p.parameter calls (.ok v) i) (hv : ¬ (Composite v ∨ whole))
      (hput : Text.Puts p.text.toList v.text.toList out out') (hrest : Fills s whole out' ps i r k) :
      Fills s whole out (p :: ps) calls r k
  | failed {out : List Char} {p : Placeholder} {ps : List Placeholder} {calls k : List FunctionId} {e : CallError}
      (h : Resolves s p.parameter calls (.error e) k) : Fills s whole out (p :: ps) calls (.error e) k

/-! ## Values -/

inductive Constant : Value → Prop
  | null : Constant .null
  | bool (b : Bool) : Constant (.bool b)
  | number (n : Number) : Constant (.number n)
  | date (t : Instant) : Constant (.date t)
  | function (f : FunctionId) : Constant (.function f)

mutual

/-- **What a value comes to**, after some calls, and the calls then. -/
inductive Interprets (s : Setting) : Value → List FunctionId → Except CallError Value → List FunctionId → Prop
  | constant {v : Value} {calls : List FunctionId} (h : Constant v) : Interprets s v calls (.ok v) calls
  | text {text : String} {calls k : List FunctionId} {r : Except CallError Value}
      (h : Fills s (IsSingle text) text.toList (Placeholder.scan text) calls r k) :
      Interprets s (.string text) calls r k
  | array {items : List Value} {calls k : List FunctionId} {r : Except CallError (List Value)}
      (h : InterpretsItems s items calls r k) : Interprets s (.array items) calls (r.map .array) k
  | object {es : List (String × Value)} {calls k : List FunctionId} {r : Except CallError (Entries Value)}
      (h : Inserts s [] es calls r k) : Interprets s (.object es) calls (r.map .object) k

inductive InterpretsItems (s : Setting) :
    List Value → List FunctionId → Except CallError (List Value) → List FunctionId → Prop
  | nil {calls : List FunctionId} : InterpretsItems s [] calls (.ok []) calls
  | failed {v : Value} {rest : List Value} {calls k : List FunctionId} {e : CallError}
      (h : Interprets s v calls (.error e) k) : InterpretsItems s (v :: rest) calls (.error e) k
  | cons {v w : Value} {rest : List Value} {calls i k : List FunctionId} {r : Except CallError (List Value)}
      (h : Interprets s v calls (.ok w) i) (hrest : InterpretsItems s rest i r k) :
      InterpretsItems s (v :: rest) calls (r.map (w :: ·)) k

inductive Inserts (s : Setting) : Entries Value → List (String × Value) → List FunctionId →
    Except CallError (Entries Value) → List FunctionId → Prop
  | nil {acc : Entries Value} {calls : List FunctionId} : Inserts s acc [] calls (.ok acc) calls
  | keyFailed {acc : Entries Value} {key : String} {v : Value} {rest : List (String × Value)}
      {calls k : List FunctionId} {e : CallError} (hk : Interprets s (.string key) calls (.error e) k) :
      Inserts s acc ((key, v) :: rest) calls (.error e) k
  | valueFailed {acc : Entries Value} {key : String} {v kv : Value} {rest : List (String × Value)}
      {calls i k : List FunctionId} {e : CallError} (hk : Interprets s (.string key) calls (.ok kv) i)
      (hv : Interprets s v i (.error e) k) : Inserts s acc ((key, v) :: rest) calls (.error e) k
  | cons {acc : Entries Value} {key : String} {v kv w : Value} {rest : List (String × Value)}
      {calls i l k : List FunctionId} {r : Except CallError (Entries Value)}
      (hk : Interprets s (.string key) calls (.ok kv) i) (hv : Interprets s v i (.ok w) l)
      (hrest : Inserts s (acc.insert kv.text w) rest l r k) : Inserts s acc ((key, v) :: rest) calls r k

end

end Stencil.Direct
