import Stencil.Entries
/-!
# TOML tables

What a TOML document says, line by line, and the tables that its lines build.  A table can be started by its header only
once, and a key can be assigned only once.  What may still be added to a table depends on where it comes from: a table
that a header only implied may get a header of its own, one made by dotted keys may get more dotted keys, and an inline
table is complete.  A path that meets an array of tables goes on in the last of them.
-/
namespace Stencil

inductive TableOrigin
  | header
  | implied
  | dotted
  | inline
deriving DecidableEq

/-- A TOML value.  Numbers, dates and times are kept as they are written. -/
inductive Toml
  | string (s : String)
  | bool (b : Bool)
  | scalar (text : String)
  | array (items : List Toml)
  | table (origin : TableOrigin) (entries : List (String × Toml))
  | tables (items : List Toml)

namespace Toml

/-- Assigns a value to a dotted key; `free` says whether keys may be assigned in the table itself. -/
def assign (free : Bool) : List String → Toml → Entries Toml → Option (Entries Toml)
  | [], _, _ => none
  | [key], v, es => if free && (es.get? key).isNone then some (es.insert key v) else none
  | key :: path, v, es =>
    match es.get? key with
    | none => (assign true path v []).map fun inner => es.insert key (.table .dotted inner)
    | some (.table .dotted inner) => (assign true path v inner).map fun inner => es.insert key (.table .dotted inner)
    | some (.table .implied inner) => (assign false path v inner).map fun inner => es.insert key (.table .implied inner)
    | some (.tables items) =>
      match items.getLast? with
      | some (.table origin inner) =>
        (assign false path v inner).map fun inner => es.insert key (.tables (items.dropLast ++ [.table origin inner]))
      | _ => none
    | some _ => none

def changeEntries (f : Entries Toml → Option (Entries Toml)) : Toml → Option Toml
  | .table .inline _ => none
  | .table origin es => (f es).map (.table origin)
  | .tables items =>
    match items.getLast? with
    | some (.table origin es) => (f es).map fun es => .tables (items.dropLast ++ [.table origin es])
    | _ => none
  | _ => none

/-- Follows the path of a header; `finish` says what becomes of what stands at its end, or of nothing. -/
def atHeader (finish : Option Toml → Option Toml) : List String → Entries Toml → Option (Entries Toml)
  | [], _ => none
  | [key], es => (finish (es.get? key)).map (es.insert key)
  | key :: path, es =>
    match es.get? key with
    | none => (atHeader finish path []).map fun inner => es.insert key (.table .implied inner)
    | some t => (changeEntries (atHeader finish path) t).map (es.insert key)

def startTable : Option Toml → Option Toml
  | none => some (.table .header [])
  | some (.table .implied es) => some (.table .header es)
  | some _ => none

def startElement : Option Toml → Option Toml
  | none => some (.tables [.table .header []])
  | some (.tables items) => some (.tables (items ++ [.table .header []]))
  | some _ => none

inductive Line
  | blank
  | assignment (key : List String) (value : Toml)
  | table (path : List String)
  | element (path : List String)

/-- The tables that lines build on the entries so far; `here` is the path of the last header. -/
def build (here : List String) (es : Entries Toml) : List Line → Option (Entries Toml)
  | [] => some es
  | .blank :: rest => build here es rest
  | .assignment key v :: rest =>
    let assigned := if here.isEmpty then assign true key v es
      else atHeader (·.bind (changeEntries (assign true key v))) here es
    assigned.bind fun es => build here es rest
  | .table path :: rest => (atHeader startTable path es).bind fun es => build path es rest
  | .element path :: rest => (atHeader startElement path es).bind fun es => build path es rest

end Toml
end Stencil
