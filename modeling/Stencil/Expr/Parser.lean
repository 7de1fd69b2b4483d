import Stencil.Expr.Basic
import Stencil.Expr.Cursor
/-!
# From tokens to expressions

The grammar, from the loosest level to the tightest:

* ternary: or, then optionally `?` ternary `:` ternary
* or: and, joined by `||`; and: coalesce, joined by `&&`; both lean to the left
* coalesce: comparison, joined by `??`, all operands in one node
* comparison: sum, then optionally one comparison sign and another sum
* sum: product, joined by `+` and `-`; product: unary, joined by `*`, `/` and `%`; both lean to the left
* unary: any number of `-` and `!` before a primary
* primary: a ternary in parentheses, a literal, or a path

An expression may be nested 64 levels deep: the whole is one level, and a parenthesis, a branch of a ternary and the
operand of a unary sign are each one more.  `Level` holds the readers of what may stand inside with some levels left, and
`Level.within` builds them from those with one level less, so that the recursion is on the levels left.
-/
namespace Stencil

/-- The most levels of nesting. -/
def maxDepth : Nat := 64

namespace TokenReader

/-- The operands of one level, joined by symbols of its class; every symbol is counted. -/
def joined {β : Type} (ops : Symbol → Option β) (operand : TokenReader Expr) (combine : Expr → β → Expr → Expr) :
    TokenReader Expr := do
  let first ← operand
  Reader.loop (opening fun | .symbol s => ops s | _ => none)
    (fun _ => do let right ← operand; count; return right) combine first

def product (unary : TokenReader Expr) : TokenReader Expr :=
  joined (fun | .star => some .mul | .slash => some .div | .percent => some .rem | _ => none) unary
    fun left op right => .math op left right

def sum (unary : TokenReader Expr) : TokenReader Expr :=
  joined (fun | .plus => some .add | .minus => some .sub | _ => none) (product unary)
    fun left op right => .math op left right

def comparison? : Token → Option CompareOp
  | .symbol .equal => some .eq
  | .symbol .notEqual => some .ne
  | .symbol .less => some .lt
  | .symbol .lessEqual => some .le
  | .symbol .greater => some .gt
  | .symbol .greaterEqual => some .ge
  | _ => none

def comparison (unary : TokenReader Expr) : TokenReader Expr := do
  let left ← sum unary
  match (← head).bind comparison? with
  | some op =>
    advance
    let right ← sum unary
    return .compare op left right
  | none => return left

def coalesced : List Expr → Expr
  | [e] => e
  | es => .coalesce es

def coalesce (unary : TokenReader Expr) : TokenReader Expr := do
  let first ← comparison unary
  let operands ← Reader.loop (opening fun t => if t = .symbol .coalesce then some () else none)
    (fun _ => do let right ← comparison unary; count; return right)
    (fun operands _ right => operands ++ [right]) [first]
  return coalesced operands

def conjunction (unary : TokenReader Expr) : TokenReader Expr :=
  joined (fun s => if s = .and then some () else none) (coalesce unary) fun left _ right => .logic .and left right

def disjunction (unary : TokenReader Expr) : TokenReader Expr :=
  joined (fun s => if s = .or then some () else none) (conjunction unary) fun left _ right => .logic .or left right

def ternary (unary nested : TokenReader Expr) : TokenReader Expr := do
  let condition ← disjunction unary
  if (← head) = some (.symbol .question) then
    advance
    let yes ← nested
    expect .colon
    let no ← nested
    return .ternary condition yes no
  else return condition

/-- The two ways in which a path goes on: a dot and a field name, or a bracketed index or key. -/
inductive PathStep
  | field
  | bracket

def pathStep? : Token → Option PathStep
  | .symbol .dot => some .field
  | .symbol .openBracket => some .bracket
  | _ => none

def fieldName? : Token → Option String
  | .name s => some s
  | .int n _ => some (toString n)
  | _ => none

def bracketKey? : Token → Option String
  | .int n _ => some (toString n)
  | .string s => some s
  | _ => none

def segment : PathStep → TokenReader String
  | .field => do
    match (← head).bind fieldName? with
    | some name =>
      advance
      return name
    | none => fail .noFieldName
  | .bracket => do
    match (← head).bind bracketKey? with
    | some key =>
      advance
      expect .closeBracket
      return key
    | none => fail .noIndex

def literal? : Token → Option Value
  | .int n fits => some (.ofInt n ⟨by omega, by omega⟩)
  | .float x => some (.ofFloat x)
  | .string s => some (.string s)
  | .bool b => some (.bool b)
  | .null => some .null
  | _ => none

def primary (nested : TokenReader Expr) : TokenReader Expr := do
  let found ← head
  match found.bind literal? with
  | some v =>
    advance
    return .constant v
  | none =>
    match found with
    | some (.symbol .openParen) =>
      advance
      let e ← nested
      expect .closeParen
      return e
    | some (.name root) =>
      advance
      let segments ← Reader.loop (opening pathStep?) segment (fun path _ s => path ++ [s]) [root]
      return .path segments
    | _ => fail (.noOperand found)

/-- unary: any number of `-` and `!` before a primary; `deeper` reads the operand of a sign. -/
def unary (deeper nested : TokenReader Expr) : TokenReader Expr := do
  match ← head with
  | some (.symbol .minus) =>
    advance
    return .negate (← deeper)
  | some (.symbol .bang) =>
    advance
    return .not (← deeper)
  | _ => primary nested

end TokenReader

/-- The readers of what may stand where some levels of nesting are left. -/
structure Level where
  ternary : TokenReader Expr
  unary : TokenReader Expr

/-- The readers with no level left: no ternary at all, and a unary that nests nothing. -/
def Level.innermost : Level where
  ternary := TokenReader.fail .tooDeep
  unary := TokenReader.unary (TokenReader.fail .tooDeep) (TokenReader.fail .tooDeep)

def Level.within (inner : Level) : Level :=
  let ternary := TokenReader.ternary inner.unary inner.ternary
  { ternary, unary := TokenReader.unary inner.unary ternary }

def Level.ofRoom : Nat → Level
  | 0 => .innermost
  | room + 1 => (Level.ofRoom room).within

namespace Expr

def whole : TokenReader Expr := do
  let e ← (Level.ofRoom maxDepth).ternary
  match ← TokenReader.head with
  | none => return e
  | found => TokenReader.fail (.leftOver found)

/-- **The expression that a source is**, or the first error in it. -/
def parse (source : String) : Except SyntaxError Expr := do
  let feed ← (Feed.ofSource source).sound
  let (e, _) ← whole.run ⟨feed, 0⟩
  return e

end Expr
end Stencil
