import Stencil.Reader
import Stencil.Toml.Basic
import Stencil.Toml.Text
/-!
# Reading TOML

A document is lines of four kinds: blank ones, assignments, and the headers of tables and of elements of an array of
tables.  Arrays and inline tables nest at most `maxNesting` deep, and the recursion is on the depth left.  A dotted key
has at most `maxParts` parts.
-/
namespace Stencil.Toml

def remaining (s : List Char) : Nat := s.length

abbrev TextReader := Reader remaining Unit

def maxNesting : Nat := 80

def maxParts : Nat := 80

namespace TextReader

variable {α : Type}

def fail : TextReader α := .failWith fun _ => ()

def head : TextReader (Option Char) := .look List.head?

def take (f : List Char → Option (α × List Char))
    (length_le : ∀ {s left : List Char} {a : α}, f s = some (a, left) → left.length ≤ s.length) : TextReader α where
  run s := match f s with | some (a, left) => .ok (a, left) | none => .error ()
  size_le {s t a} h := by
    split at h
    · cases h; exact length_le (by assumption)
    · cases h

def span (test : Char → Bool) : TextReader (List Char) where
  run s := .ok (s.takeWhile test, s.dropWhile test)
  size_le h := by cases h; exact (List.dropWhile_suffix test).length_le

def mark (m : List Char) : TextReader Unit where
  run s := if m.isPrefixOf s then .ok ((), s.drop m.length) else .error ()
  size_le {s t a} h := by
    split at h
    · cases h; simp [remaining]
    · cases h

def next (m : List Char) : TextReader Bool := .look fun s => m.isPrefixOf s

/-- The opening of a round that one of some texts makes, blanks around it not counted. -/
def opening (blank : Char → Bool) (m : Char) : Reader.Opening remaining Unit Unit where
  run s :=
    match s.dropWhile blank with
    | c :: rest => if c = m then some (.ok ((), rest.dropWhile blank)) else none
    | [] => none
  size_lt {s t b} h := by
    have h₁ := (List.dropWhile_suffix blank (l := s)).length_le
    split at h
    · rename_i c rest hd
      split at h
      · cases h
        have h₂ := (List.dropWhile_suffix blank (l := rest)).length_le
        rw [hd] at h₁; simp only [remaining, List.length_cons] at h₁ ⊢; omega
      · cases h
    · cases h

def isBlank (c : Char) : Bool := c = ' ' || c = '\t'

def blanks : TextReader Unit := do let _ ← span isBlank

def comment : TextReader Unit := do
  if ← next ['#'] then
    let _ ← span fun c => !Text.isControl c

def lineOpening : Reader.Opening remaining Unit Unit where
  run s := (Text.lineBreak s).map fun rest => .ok ((), rest)
  size_lt {s t b} h := by
    obtain ⟨rest, hr, he⟩ := Option.map_eq_some_iff.1 h
    cases he
    exact Text.lineBreak_length hr

def gap : TextReader Unit := do
  blanks
  comment
  Reader.loop lineOpening (fun _ => do blanks; comment) (fun _ _ _ => ()) ()

/-- Goes past the line break right after the opening quotes of a block. -/
def blockStart : TextReader Unit where
  run s := .ok ((), (Text.lineBreak s).getD s)
  size_le {s t a} h := by
    cases h
    cases hb : Text.lineBreak s with
    | none => exact Nat.le_refl _
    | some t => exact Nat.le_of_lt (Text.lineBreak_length hb)

def quotedLine : TextReader String := do
  if ← next ['"'] then
    mark ['"']
    return String.ofList (← take Text.basic (Text.basic_length _))
  else
    mark ['\'']
    return String.ofList (← take Text.literal Text.literal_length)

def quotedBlock (quote : Char) : TextReader String := do
  mark [quote, quote, quote]
  blockStart
  return String.ofList (← take (Text.block quote) (Text.block_length quote _))

def quoted : TextReader String := do
  if ← next ['"', '"', '"'] then quotedBlock '"'
  else if ← next ['\'', '\'', '\''] then quotedBlock '\''
  else quotedLine

def keyPart : TextReader String := do
  if (← head) = some '"' ∨ (← head) = some '\'' then quotedLine
  else
    let name ← span fun c => c.isAlphanum || c = '-' || c = '_'
    if name.isEmpty then fail else return String.ofList name

def key : TextReader (List String) := do
  let first ← keyPart
  let path ← Reader.loop (opening isBlank '.') (fun _ => keyPart) (fun path _ part => path ++ [part]) [first]
  if path.length ≤ maxParts then return path else fail

/-- A key, an equals sign and a value; `space` goes past what may stand around the sign. -/
def assignment (space : TextReader Unit) (value : TextReader Toml) : TextReader (List String × Toml) := do
  let path ← key
  space
  mark ['=']
  space
  return (path, ← value)

/-- Items set apart by commas, up to a closing character; a comma may stand behind the last. -/
def listed (close : Char) (item : TextReader α) : TextReader (List α) := do
  gap
  let items ←
    if (← head) = some close then pure []
    else
      let first ← item
      gap
      Reader.loop (opening (fun _ => false) ',')
        (fun _ => do
          gap
          if (← head) = some close then return none
          else
            let a ← item
            gap
            return some a)
        (fun items _ a? => items ++ a?.toList) [first]
  mark [close]
  return items

def isScalarChar (c : Char) : Bool := c.isAlphanum || c = '+' || c = '-' || c = '.' || c = '_' || c = ':'

def scalarText : TextReader (List Char) := do
  let text ← span isScalarChar
  let timeFollows ← Reader.look fun s => s.head? = some ' ' && s.tail.head?.any Char.isDigit
  if Scalar.date text = some [] && timeFollows then
    mark [' ']
    let time ← span isScalarChar
    return text ++ ' ' :: time
  else return text

def scalar : TextReader Toml := do
  let text ← scalarText
  if text = ['t', 'r', 'u', 'e'] then return .bool true
  else if text = ['f', 'a', 'l', 's', 'e'] then return .bool false
  else if Scalar.valid text then return .scalar (String.ofList text)
  else fail

def plain : TextReader Toml := do
  if (← head) = some '"' ∨ (← head) = some '\'' then return .string (← quoted) else scalar

/-- A value; `inner` reads what arrays and inline tables hold. -/
def value (inner : TextReader Toml) : TextReader Toml := do
  match ← head with
  | some '[' =>
    mark ['[']
    return .array (← listed ']' inner)
  | some '{' =>
    mark ['{']
    let pairs ← listed '}' (assignment gap inner)
    match pairs.foldlM (fun es (path, v) => assign true path v es) [] with
    | some es => return .table .inline es
    | none => fail
  | _ => plain

def valueWithin : Nat → TextReader Toml
  | 0 => plain
  | depth + 1 => value (valueWithin depth)

def header : TextReader Line := do
  mark ['[']
  if ← next ['['] then
    mark ['[']
    blanks
    let path ← key
    blanks
    mark [']', ']']
    return .element path
  else
    blanks
    let path ← key
    blanks
    mark [']']
    return .table path

def line : TextReader Line := do
  blanks
  let c ← head
  let said ←
    if c = none ∨ c = some '\n' ∨ c = some '\r' ∨ c = some '#' then pure .blank
    else if c = some '[' then header
    else
      let (path, v) ← assignment blanks (valueWithin maxNesting)
      pure (.assignment path v)
  blanks
  comment
  return said

def lines : TextReader (List Line) := do
  let first ← line
  Reader.loop lineOpening (fun _ => line) (fun lines _ said => lines ++ [said]) [first]

end TextReader

/-- **The top table of a TOML document**; none if the text is no such document. -/
def ofText? (text : String) : Option (Entries Toml) :=
  let s := match text.toList with
    | '\ufeff' :: rest => rest
    | s => s
  match TextReader.lines.run s with
  | .ok (lines, []) => build [] [] lines
  | _ => none

end Stencil.Toml
