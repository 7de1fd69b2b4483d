import Stencil.FirstWins
import Stencil.Placeholder
import Stencil.Value.Basic
/-!
# Compiled values

A compiled value has the shape of the value it comes from.  Every text in it, the keys of objects too, has been searched
for placeholders; everything that is neither a text nor made of parts is constant.

The placeholders of an object are counted entry by entry, those of the stored value before those of its key.
-/
namespace Stencil

structure Pattern where
  source : String
  placeholders : List Placeholder
deriving DecidableEq

def Pattern.ofText (source : String) : Pattern := ⟨source, Placeholder.scan source⟩

def Pattern.parameters (p : Pattern) : List Parameter := p.placeholders.map (·.parameter)

inductive Node
  | constant (v : Value)
  | text (pattern : Pattern)
  | object (entries : List (Pattern × Node))
  | array (items : List Node)

namespace Node

mutual

def ofValue : Value → Node
  | .string s => .text (.ofText s)
  | .object es => .object (ofEntries es)
  | .array items => .array (ofItems items)
  | .null => .constant .null
  | .bool b => .constant (.bool b)
  | .number n => .constant (.number n)
  | .date t => .constant (.date t)
  | .function f => .constant (.function f)

def ofItems : List Value → List Node
  | [] => []
  | v :: rest => ofValue v :: ofItems rest

def ofEntries : List (String × Value) → List (Pattern × Node)
  | [] => []
  | (k, v) :: rest => (.ofText k, ofValue v) :: ofEntries rest

end

mutual

def parameters : Node → List Parameter
  | .constant _ => []
  | .text p => p.parameters
  | .object es => entryParameters es
  | .array items => itemParameters items

def itemParameters : List Node → List Parameter
  | [] => []
  | n :: rest => n.parameters ++ itemParameters rest

def entryParameters : List (Pattern × Node) → List Parameter
  | [] => []
  | (k, n) :: rest => n.parameters ++ k.parameters ++ entryParameters rest

end

end Node
end Stencil
