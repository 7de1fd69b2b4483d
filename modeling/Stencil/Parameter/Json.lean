import Stencil.Json.Lexer
import Stencil.Json.Printer
import Stencil.Parameter
/-!
# Parameters as JSON

A parameter is written as an object with the members `key` and, if there is a default, `defaultValue`.  Read, the members
may stand in any order but each only once, others are skipped, and the default may be missing or null.  A parameter may
also be read from an array of the key and, optionally, the default.
-/
namespace Stencil.Parameter

def toJson (p : Parameter) : Json :=
  .object (("key", .string p.key) :: (p.default?.map fun d => ("defaultValue", Json.string d)).toList)

def jsonText (p : Parameter) : String := p.toJson.text

def defaultOf? : Json.Token → Option (Option String)
  | .null => some none
  | .string ps => (Json.decodeText ps).map some
  | _ => none

structure Members where
  key? : Option String
  default? : Option (Option String)

def Members.parameter? (m : Members) : Option Parameter :=
  m.key?.map fun key => ⟨key, m.default?.getD none⟩

/-- Takes in one member, whose name has been read; gives what follows it. -/
def Members.take? (m : Members) (name : String) (tokens : List Json.Token) : Option (Members × List Json.Token) :=
  if name = "key" then
    match m.key?, tokens with
    | none, .string ps :: rest => (Json.decodeText ps).map fun key => ({ m with key? := some key }, rest)
    | _, _ => none
  else if name = "defaultValue" then
    match m.default?, tokens with
    | none, t :: rest => (defaultOf? t).map fun d => ({ m with default? := some d }, rest)
    | _, _ => none
  else (Json.skip .value [] tokens).map (m, ·)

theorem Members.take?_length {m n : Members} {name : String} {ts left : List Json.Token}
    (h : m.take? name ts = some (n, left)) : left.length < ts.length := by
  unfold take? at h
  split at h
  · split at h
    · obtain ⟨_, _, he⟩ := Option.map_eq_some_iff.1 h
      simp only [Prod.mk.injEq] at he; simp [← he.2]
    · cases h
  · split at h
    · split at h
      · obtain ⟨_, _, he⟩ := Option.map_eq_some_iff.1 h
        simp only [Prod.mk.injEq] at he; simp [← he.2]
      · cases h
    · obtain ⟨_, hs, he⟩ := Option.map_eq_some_iff.1 h
      have := Json.skip_length _ hs
      simp only [Prod.mk.injEq] at he; simpa [← he.2] using this

/-- Reads the members of an object up to its closing brace, which must end the text. -/
def ofMembers? (m : Members) (tokens : List Json.Token) : Option Parameter :=
  match tokens with
  | .string name :: .colon :: rest =>
    match Json.decodeText name with
    | none => none
    | some name =>
      match _h : m.take? name rest with
      | some (m, [.closeBrace]) => m.parameter?
      | some (m, .comma :: rest) => ofMembers? m rest
      | _ => none
  | _ => none
termination_by tokens.length
decreasing_by
  have := Members.take?_length (by assumption)
  simp only [List.length_cons] at this ⊢; omega

def ofTokens? : List Json.Token → Option Parameter
  | .openBrace :: rest => ofMembers? ⟨none, none⟩ rest
  | [.openBracket, .string key, .closeBracket] => (Json.decodeText key).map (⟨·, none⟩)
  | [.openBracket, .string key, .comma, default, .closeBracket] =>
    (Json.decodeText key).bind fun key => (defaultOf? default).map (⟨key, ·⟩)
  | _ => none

def ofJsonText? (text : String) : Option Parameter := (Json.Token.ofText? text.toList).bind ofTokens?

end Stencil.Parameter
