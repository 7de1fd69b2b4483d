import Stencil.Template.Basic
import Stencil.Text.Quoted
/-!
# Inspecting templates

A template spelled out for the eye of a developer: every record with its fields, every text in quotes, every number by
its exact digits.
-/
namespace Stencil.Inspect

def record (name : String) (fields : List (String × String)) : String :=
  name ++ " \x7b " ++ ", ".intercalate (fields.map fun (k, v) => k ++ ": " ++ v) ++ " \x7d"

def tagged (name part : String) : String := name ++ "(" ++ part ++ ")"

def listed (parts : List String) : String := "[" ++ ", ".intercalate parts ++ "]"

def flag (b : Bool) : String := if b then "true" else "false"

mutual

def value : Value → String
  | .null => "Null"
  | .bool b => tagged "Bool" (flag b)
  | .number n => tagged "Number" (tagged "Number" n.jsonText)
  | .string s => tagged "String" (Text.quoted s)
  | .array items => tagged "Array" (listed (values items))
  | .object es => tagged "Object" ("\x7b" ++ ", ".intercalate (entries es) ++ "\x7d")
  | .date t => tagged "DateTime" (t.localText ++ "Z")
  | .function _ => tagged "Function" "Function"

def values : List Value → List String
  | [] => []
  | v :: rest => value v :: values rest

def entries : List (String × Value) → List String
  | [] => []
  | (k, v) :: rest => (Text.quoted k ++ ": " ++ value v) :: entries rest

end

def parameter (p : Parameter) : String :=
  record "Parameter" [
    ("key", Text.quoted p.key),
    ("default_value", match p.default? with | some d => tagged "Some" (Text.quoted d) | none => "None")]

def placeholder (p : Placeholder) : String :=
  record "Placeholder" [
    ("text", Text.quoted p.text),
    ("span", toString p.start ++ ".." ++ toString p.stop),
    ("parameter", parameter p.parameter)]

/-- A pattern; without placeholders it is a constant. -/
def pattern (evaluated : Bool) (p : Pattern) : String :=
  if p.placeholders.isEmpty then tagged "Constant" (value (.string p.source))
  else tagged "Text" (record "StringTemplate" [
    ("source", Text.quoted p.source),
    ("placeholders", listed (p.placeholders.map placeholder)),
    ("eval_defaults", flag evaluated)])

mutual

def node (evaluated : Bool) : Node → String
  | .constant v => tagged "Constant" (value v)
  | .text p => pattern evaluated p
  | .object es => tagged "Object" (listed (nodeEntries evaluated es))
  | .array items => tagged "Array" (listed (nodes evaluated items))

def nodes (evaluated : Bool) : List Node → List String
  | [] => []
  | n :: rest => node evaluated n :: nodes evaluated rest

def nodeEntries (evaluated : Bool) : List (Pattern × Node) → List String
  | [] => []
  | (k, n) :: rest =>
    record "ObjectEntry" [("key", pattern evaluated k), ("value", node evaluated n)] :: nodeEntries evaluated rest

end

def template (t : Template) : String :=
  record "Template" [
    ("root", node t.evaluator?.isSome t.root),
    ("parameters", listed (t.parameters.map parameter))]

def options (o : Options) : String :=
  record "Options" [
    ("eval_defaults", flag o.evalDefaults),
    ("evaluator", match o.evaluator with | .expressions => "Expr"),
    ("custom_evaluator", flag o.custom?.isSome)]

end Stencil.Inspect
