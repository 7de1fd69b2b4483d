import Stencil.Expr.Parser
/-!
# The grammar of expressions

The grammar as a relation between the tokens of a phrase and the expression that it is.

* ternary: disjunction, then optionally `?` ternary `:` ternary
* disjunction: conjunction, joined by `||`; conjunction: coalesce, joined by `&&`
* coalesce: comparison, or choices, which are two or more comparisons joined by `??` and make one node
* comparison: sum, then optionally one comparison sign and another sum
* sum: product, joined by `+` and `-`; product: unary, joined by `*`, `/` and `%`
* unary: `-` or `!` before a unary, or a primary
* primary: a literal, a path, or a ternary in parentheses

A derivation has a depth and a number of operators.  The depth is the number of levels within each other: a ternary is one
level, so that the whole, every parenthesis and every branch of a ternary count one, and the operand of `-` and `!` is one
more.  The operators are those between two operands, comparisons apart.
-/
namespace Stencil

inductive Phrase
  | primary
  | unary
  | product
  | sum
  | comparison
  | choices
  | coalesce
  | conjunction
  | disjunction
  | ternary
deriving DecidableEq

namespace Grammar

inductive Literal : Token → Value → Prop
  | int (n : Nat) (fits : n < 2 ^ 63) (word : FitsWord n) : Literal (.int n fits) (.number (.int n word))
  | float (x : Float) : Literal (.float x) (.ofFloat x)
  | string (s : String) : Literal (.string s) (.string s)
  | bool (b : Bool) : Literal (.bool b) (.bool b)
  | null : Literal .null .null

/-- The segments that a path goes on with: names and integers behind dots, and integers and strings in brackets.  An
integer is the segment of its decimal digits. -/
inductive Segment : List Token → String → Prop
  | name (s : String) : Segment [.symbol .dot, .name s] s
  | position (n : Nat) (fits : n < 2 ^ 63) : Segment [.symbol .dot, .int n fits] (toString n)
  | index (n : Nat) (fits : n < 2 ^ 63) :
      Segment [.symbol .openBracket, .int n fits, .symbol .closeBracket] (toString n)
  | key (s : String) : Segment [.symbol .openBracket, .string s, .symbol .closeBracket] s

inductive Path : List Token → List String → Prop
  | root (name : String) : Path [.name name] [name]
  | segment {ts us : List Token} {segments : List String} {s : String} (h : Path ts segments) (hs : Segment us s) :
      Path (ts ++ us) (segments ++ [s])

inductive Chain : Phrase → Phrase → Prop
  | product : Chain .product .unary
  | sum : Chain .sum .product
  | conjunction : Chain .conjunction .coalesce
  | disjunction : Chain .disjunction .conjunction

inductive Operator : Phrase → Symbol → (Expr → Expr → Expr) → Prop
  | mul : Operator .product .star (.math .mul)
  | div : Operator .product .slash (.math .div)
  | rem : Operator .product .percent (.math .rem)
  | add : Operator .sum .plus (.math .add)
  | sub : Operator .sum .minus (.math .sub)
  | and : Operator .conjunction .and (.logic .and)
  | or : Operator .disjunction .or (.logic .or)

inductive Comparison : Symbol → CompareOp → Prop
  | eq : Comparison .equal .eq
  | ne : Comparison .notEqual .ne
  | lt : Comparison .less .lt
  | le : Comparison .lessEqual .le
  | gt : Comparison .greater .gt
  | ge : Comparison .greaterEqual .ge

/-- **Tokens read as a phrase are an expression**, in a derivation of some depth with some number of operators. -/
inductive Derives : Phrase → Nat → Nat → List Token → Expr → Prop
  | literal {t : Token} {v : Value} (h : Literal t v) : Derives .primary 0 0 [t] (.constant v)
  | path {ts : List Token} {segments : List String} (h : Path ts segments) : Derives .primary 0 0 ts (.path segments)
  | paren {d n : Nat} {ts : List Token} {e : Expr} (h : Derives .ternary d n ts e) :
      Derives .primary d n (.symbol .openParen :: (ts ++ [.symbol .closeParen])) e
  | primary {d n : Nat} {ts : List Token} {e : Expr} (h : Derives .primary d n ts e) : Derives .unary d n ts e
  | negate {d n : Nat} {ts : List Token} {e : Expr} (h : Derives .unary d n ts e) :
      Derives .unary (d + 1) n (.symbol .minus :: ts) (.negate e)
  | not {d n : Nat} {ts : List Token} {e : Expr} (h : Derives .unary d n ts e) :
      Derives .unary (d + 1) n (.symbol .bang :: ts) (.not e)
  | operand {p q : Phrase} {d n : Nat} {ts : List Token} {e : Expr} (hp : Chain p q) (h : Derives q d n ts e) :
      Derives p d n ts e
  | operator {p q : Phrase} {s : Symbol} {node : Expr → Expr → Expr} {d d' n n' : Nat} {ts us : List Token} {l r : Expr}
      (hp : Chain p q) (hs : Operator p s node) (hl : Derives p d n ts l) (hr : Derives q d' n' us r) :
      Derives p (max d d') (n + (n' + 1)) (ts ++ .symbol s :: us) (node l r)
  | sum {d n : Nat} {ts : List Token} {e : Expr} (h : Derives .sum d n ts e) : Derives .comparison d n ts e
  | compare {s : Symbol} {op : CompareOp} {d d' n n' : Nat} {ts us : List Token} {l r : Expr} (hs : Comparison s op)
      (hl : Derives .sum d n ts l) (hr : Derives .sum d' n' us r) :
      Derives .comparison (max d d') (n + n') (ts ++ .symbol s :: us) (.compare op l r)
  | comparison {d n : Nat} {ts : List Token} {e : Expr} (h : Derives .comparison d n ts e) : Derives .coalesce d n ts e
  | choices {d n : Nat} {ts : List Token} {e : Expr} (h : Derives .choices d n ts e) : Derives .coalesce d n ts e
  | firstChoices {d d' n n' : Nat} {ts us : List Token} {l r : Expr} (hl : Derives .comparison d n ts l)
      (hr : Derives .comparison d' n' us r) :
      Derives .choices (max d d') (n + (n' + 1)) (ts ++ .symbol .coalesce :: us) (.coalesce [l, r])
  | nextChoice {d d' n n' : Nat} {ts us : List Token} {es : List Expr} {r : Expr} (hl : Derives .choices d n ts (.coalesce es))
      (hr : Derives .comparison d' n' us r) :
      Derives .choices (max d d') (n + (n' + 1)) (ts ++ .symbol .coalesce :: us) (.coalesce (es ++ [r]))
  | disjunction {d n : Nat} {ts : List Token} {e : Expr} (h : Derives .disjunction d n ts e) :
      Derives .ternary (d + 1) n ts e
  | ternary {d d₁ d₂ n n₁ n₂ : Nat} {ts us vs : List Token} {c yes no : Expr} (hc : Derives .disjunction d n ts c)
      (hyes : Derives .ternary d₁ n₁ us yes) (hno : Derives .ternary d₂ n₂ vs no) :
      Derives .ternary (max d (max d₁ d₂) + 1) (n + (n₁ + n₂)) (ts ++ .symbol .question :: (us ++ .symbol .colon :: vs))
        (.ternary c yes no)

end Grammar
end Stencil
