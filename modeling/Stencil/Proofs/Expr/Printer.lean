import Stencil.Proofs.Expr.Chained
import Stencil.Proofs.Expr.Nodes
import Stencil.Proofs.Path.Spelling
/-!
# Writing expressions

An expression is written with a blank on each side of an operator between operands, with its strings and the further
segments of its paths between quotation marks, and with parentheses around just those operands that are looser than the
place where they stand (`Expr.text`).

So much can be written (`Expr.Writable`): constants that a literal can be, paths from a name that is no keyword, and nodes
of two operands or more.
-/
namespace Stencil

inductive Quote
  | single
  | double

namespace Quote

def char : Quote → Char
  | .single => '\''
  | .double => '"'

theorem char_eq (q : Quote) : q.char = '"' ∨ q.char = '\'' := by
  cases q
  · exact .inr rfl
  · exact .inl rfl

def around (q : Quote) (s : String) : List Char := q.char :: (Path.escaped q.char s.toList ++ [q.char])

end Quote

/-! ## Places -/

/-- What the operands of a phrase are, apart from the left one of a chain, which may be the same phrase again. -/
def Phrase.operand : Phrase → Phrase
  | .ternary => .disjunction
  | .disjunction => .conjunction
  | .conjunction => .coalesce
  | .coalesce | .choices => .comparison
  | .comparison => .sum
  | .sum => .product
  | .product | .unary | .primary => .unary

def MathOp.phrase : MathOp → Phrase
  | .mul | .div | .rem => .product
  | .add | .sub => .sum

def LogicOp.phrase : LogicOp → Phrase
  | .and => .conjunction
  | .or => .disjunction

namespace Expr

def phrase : Expr → Phrase
  | .path _ | .constant _ | .negate _ | .not _ => .unary
  | .math op _ _ => op.phrase
  | .compare _ _ _ => .comparison
  | .coalesce _ => .coalesce
  | .logic op _ _ => op.phrase
  | .ternary _ _ _ => .ternary

def Fits (e : Expr) (p : Phrase) : Prop := e.phrase.looseness ≤ p.looseness

instance (e : Expr) (p : Phrase) : Decidable (e.Fits p) := inferInstanceAs (Decidable (_ ≤ _))

/-! ## Texts -/

def enclosed (p : Phrase) (e : Expr) (text : List Char) : List Char :=
  if e.Fits p then text else '(' :: (text ++ [')'])

def joined (sign : String) (s u : List Char) : List Char := s ++ ' ' :: (sign.toList ++ ' ' :: u)

def joinedAll (sign : String) : List (List Char) → List Char
  | [] => []
  | s :: rest => rest.foldl (joined sign) s

def pathChars (quote : String → Quote) : List String → List Char
  | [] => []
  | root :: rest => root.toList ++ rest.flatMap fun s => '[' :: ((quote s).around s ++ [']'])

def constantChars (quote : String → Quote) : Value → List Char
  | .string s => (quote s).around s
  | v => v.text.toList

mutual

def chars (quote : String → Quote) : Expr → List Char
  | .path segments => pathChars quote segments
  | .constant v => constantChars quote v
  | .math op left right =>
    joined op.sign (enclosed op.phrase left (left.chars quote)) (enclosed op.phrase.operand right (right.chars quote))
  | .compare op left right =>
    joined op.sign (enclosed .sum left (left.chars quote)) (enclosed .sum right (right.chars quote))
  | .logic op left right =>
    joined op.sign (enclosed op.phrase left (left.chars quote)) (enclosed op.phrase.operand right (right.chars quote))
  | .ternary condition yes no =>
    joined "?" (enclosed .disjunction condition (condition.chars quote))
      (joined ":" (enclosed .ternary yes (yes.chars quote)) (enclosed .ternary no (no.chars quote)))
  | .coalesce operands => joinedAll "??" (operandChars quote operands)
  | .negate operand => '-' :: enclosed .unary operand (operand.chars quote)
  | .not operand => '!' :: enclosed .unary operand (operand.chars quote)

def operandChars (quote : String → Quote) : List Expr → List (List Char)
  | [] => []
  | e :: rest => enclosed .comparison e (e.chars quote) :: operandChars quote rest

end

/-- **The text of an expression**, with a quotation mark chosen for every string. -/
def text (quote : String → Quote) (e : Expr) : String := String.ofList (e.chars quote)

/-! ## Levels and operators -/

/-- The levels within the level around a place: a branch of a ternary is one more, and so is what parentheses enclose. -/
def levelsAt (p : Phrase) (e : Expr) (nesting : Nat) : Nat := if e.Fits p ∧ p ≠ .ternary then nesting else nesting + 1

mutual

def nesting : Expr → Nat
  | .path _ | .constant _ => 0
  | .math op left right => max (levelsAt op.phrase left left.nesting) (levelsAt op.phrase.operand right right.nesting)
  | .compare _ left right => max (levelsAt .sum left left.nesting) (levelsAt .sum right right.nesting)
  | .logic op left right => max (levelsAt op.phrase left left.nesting) (levelsAt op.phrase.operand right right.nesting)
  | .ternary condition yes no =>
    max (levelsAt .disjunction condition condition.nesting)
      (max (levelsAt .ternary yes yes.nesting) (levelsAt .ternary no no.nesting))
  | .coalesce operands => operandNesting operands
  | .negate operand | .not operand => levelsAt .unary operand operand.nesting + 1

def operandNesting : List Expr → Nat
  | [] => 0
  | e :: rest => max (levelsAt .comparison e e.nesting) (operandNesting rest)

end

/-- The levels of an expression's text: one for the whole, and one more for each parenthesis, branch of a ternary and
operand of a sign that encloses what is deepest. -/
def levels (e : Expr) : Nat := e.nesting + 1

mutual

def operators : Expr → Nat
  | .path _ | .constant _ => 0
  | .math _ left right | .logic _ left right => left.operators + (right.operators + 1)
  | .compare _ left right => left.operators + right.operators
  | .ternary condition yes no => condition.operators + (yes.operators + no.operators)
  | .coalesce operands => operandOperators operands - 1
  | .negate operand | .not operand => operand.operators

def operandOperators : List Expr → Nat
  | [] => 0
  | e :: rest => (e.operators + 1) + operandOperators rest

end

/-! ## What can be written -/

def isName (s : String) : Bool :=
  match s.toList with
  | [] => false
  | c :: rest => Token.isNameStart c && rest.all Token.isNameChar && s ∉ ["true", "false", "null"]

/-- A constant that a literal can be: null, a truth value, a string, or an integer from 0 up to signed size. -/
def isLiteral : Value → Bool
  | .null | .bool _ | .string _ => true
  | .number (.int n _) => 0 ≤ n && n < 2 ^ 63
  | _ => false

def isWritable : Expr → Bool
  | .path segments => segments.head?.any isName
  | .constant v => isLiteral v
  | .coalesce operands => 2 ≤ operands.length
  | _ => true

/-- **The expressions that can be written.** -/
def Writable (e : Expr) : Prop := ∀ x ∈ e.nodes, x.isWritable = true

instance (e : Expr) : Decidable e.Writable := inferInstanceAs (Decidable (∀ x ∈ e.nodes, _))

end Expr
end Stencil
