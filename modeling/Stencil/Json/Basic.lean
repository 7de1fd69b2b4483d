import Stencil.Value.Basic
/-!
# Plain JSON

JSON data, and how values turn into it and back.  Instants turn into their text and functions into null; everything
else keeps what it is, the order of entries and the kind of number included.
-/
namespace Stencil

/-- JSON data, with the entries of an object in order. -/
inductive Json
  | null
  | bool (b : Bool)
  | number (n : Number)
  | string (s : String)
  | array (items : List Json)
  | object (entries : List (String × Json))

mutual

def Value.toJson : Value → Json
  | .null | .function _ => .null
  | .bool b => .bool b
  | .number n => .number n
  | .string s => .string s
  | .array items => .array (Value.itemsToJson items)
  | .object es => .object (Value.entriesToJson es)
  | .date t => .string t.text

def Value.itemsToJson : List Value → List Json
  | [] => []
  | v :: rest => v.toJson :: Value.itemsToJson rest

def Value.entriesToJson : List (String × Value) → List (String × Json)
  | [] => []
  | (k, v) :: rest => (k, v.toJson) :: Value.entriesToJson rest

end

mutual

def Value.ofJson : Json → Value
  | .null => .null
  | .bool b => .bool b
  | .number n => .number n
  | .string s => .string s
  | .array items => .array (Value.itemsOfJson items)
  | .object es => .object (Value.entriesOfJson es)

def Value.itemsOfJson : List Json → List Value
  | [] => []
  | j :: rest => Value.ofJson j :: Value.itemsOfJson rest

def Value.entriesOfJson : List (String × Json) → List (String × Value)
  | [] => []
  | (k, j) :: rest => (k, Value.ofJson j) :: Value.entriesOfJson rest

end

end Stencil
