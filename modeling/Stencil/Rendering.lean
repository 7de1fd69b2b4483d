import Stencil.Note
/-!
# Renderings

A rendering may call functions, and each call may answer differently.  What a call answers is up to a *host*, which knows
the calls made so far.  The *journal* of a rendering lists these calls and the notes made on the way; it is kept when the
rendering fails, since a call that was made stays made.
-/
namespace Stencil

/-- What a function answers when it is called after some calls, the latest of which comes first: a value or a message. -/
abbrev Host := List FunctionId → FunctionId → Except String Value

/-- The calls made and the notes taken so far, the latest first. -/
structure Journal where
  calls : List FunctionId := []
  notes : List Note := []
deriving DecidableEq

/-- The one way in which a rendering fails: a function that a key led to failed. -/
structure CallError where
  key : String
  message : String
deriving DecidableEq

def CallError.text (e : CallError) : String := "function at '" ++ e.key ++ "' failed: " ++ e.message

abbrev Rendering := ExceptT CallError (StateM Journal)

namespace Rendering

def note (notes : List Note) : Rendering Unit :=
  modify fun j => { j with notes := notes.reverse ++ j.notes }

def call (host : Host) (key : String) (f : FunctionId) : Rendering Value := do
  let j ← getThe Journal
  set { j with calls := f :: j.calls }
  match host j.calls f with
  | .ok v => return v
  | .error message => throw ⟨key, message⟩

end Rendering
end Stencil
