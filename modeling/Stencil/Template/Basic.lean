import Stencil.Options
import Stencil.Rendering
import Stencil.Template.Node
import Stencil.Text.Splice
/-!
# Templates

A template is compiled once and rendered against many contexts.

A placeholder stands for what its key leads to in the context, if that is not null, and otherwise for its default: the
value of the default text under the evaluator, the text itself if there is no evaluator or it fails, null if there is no
default.  If that is a function it is called, once, and what it answers is taken as it is.

In a text the placeholders are resolved from left to right.  Each value's text replaces the first place in the text made
so far that reads like the placeholder.  A composite value takes the place of the whole text and ends it, and so does any
value where the text is a single placeholder and nothing else.

An object is rendered entry by entry, the key before what it stores; where two rendered keys are the same the later value
stands in the place of the earlier.
-/
namespace Stencil

/-- What a rendering reads: the functions' host, the evaluator of defaults and the context. -/
structure Setting where
  host : Host
  evaluator? : Option Evaluator
  context : Value

namespace Parameter

/-- What stands for a parameter whose key leads nowhere or to null, and the notes on it. -/
def fallback (s : Setting) (p : Parameter) : Value × List Note :=
  match p.default? with
  | none => (.null, [])
  | some raw =>
    match s.evaluator? with
    | none => (.string raw, [])
    | some evaluate =>
      match evaluate raw s.context with
      | .ok v => (v, [])
      | .error e => (.string raw, [.defaultAsText p.key e])

/-- What a parameter stands for before any call, and the notes on it. -/
def found (s : Setting) (p : Parameter) : Value × List Note :=
  match s.context.get? p.key with
  | some v => if v.isNull then p.fallback s else (v, [])
  | none => p.fallback s

def resolve (s : Setting) (p : Parameter) : Rendering Value := do
  let (value, notes) := p.found s
  Rendering.note notes
  match value with
  | .function f => Rendering.call s.host p.key f
  | v => return v

end Parameter

namespace Pattern

def isSingle (p : Pattern) : Bool :=
  p.placeholders.length == 1 && ['{', '{'].isPrefixOf p.source.toList && ['}', '}'].isSuffixOf p.source.toList

/-- Resolves placeholders one by one and splices their values into the text made so far; a value that is kept ends it. -/
def splice (s : Setting) (keep : Bool) : List Char → List Placeholder → Rendering Value
  | out, [] => return .string (String.ofList out)
  | out, p :: rest => do
    let v ← p.parameter.resolve s
    if v.isComposite || keep then return v
    else splice s keep (Text.replaceFirst p.text.toList v.text.toList out) rest

def render (s : Setting) (p : Pattern) : Rendering Value := splice s p.isSingle p.source.toList p.placeholders

end Pattern

namespace Node

mutual

def render (s : Setting) : Node → Rendering Value
  | .constant v => return v
  | .text p => p.render s
  | .object es => do return .object (Entries.ofList (← renderEntries s es))
  | .array items => do return .array (← renderItems s items)

def renderItems (s : Setting) : List Node → Rendering (List Value)
  | [] => return []
  | n :: rest => do
    let v ← n.render s
    let vs ← renderItems s rest
    return v :: vs

def renderEntries (s : Setting) : List (Pattern × Node) → Rendering (List (String × Value))
  | [] => return []
  | (k, n) :: rest => do
    let key ← k.render s
    let value ← n.render s
    let pairs ← renderEntries s rest
    return (key.text, value) :: pairs

end

end Node

/-- A compiled template: the compiled value and the evaluator of its defaults. -/
structure Template where
  root : Node
  evaluator? : Option Evaluator

namespace Template

def compile (options : Options) (v : Value) : Template := ⟨.ofValue v, options.active?⟩

/-- **What a template asks for**: the first parameter of each key, in order. -/
def parameters (t : Template) : List Parameter := firstWins (·.key) t.root.parameters

def render (t : Template) (host : Host) (context : Value) : Rendering Value :=
  t.root.render ⟨host, t.evaluator?, context⟩

def renderJson (t : Template) (host : Host) (context : Json) : Rendering Json := do
  let v ← t.render host (.ofJson context)
  return v.toJson

end Template

namespace Value

mutual

def kinds : Value → List Kind
  | .object es => .object :: entryKinds es
  | .array items => .array :: itemKinds items
  | .string _ => [.string]
  | .date _ => [.date]
  | .null => [.null]
  | .bool _ | .number _ | .function _ => [.other]

def itemKinds : List Value → List Kind
  | [] => []
  | v :: rest => v.kinds ++ itemKinds rest

def entryKinds : List (String × Value) → List Kind
  | [] => []
  | (_, v) :: rest => v.kinds ++ entryKinds rest

end

def compileNotes (v : Value) : List Note :=
  v.kinds.map .compiling ++ [.compiled v.kind (Node.ofValue v).parameters.length]

end Value
end Stencil
