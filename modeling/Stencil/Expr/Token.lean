import Stencil.Decimal.Form
import Stencil.Text.Quoted
/-!
# Tokens

The words of the expression language, how a message names them, and what can be wrong with a text.
-/
namespace Stencil

inductive Symbol
  | plus
  | minus
  | star
  | slash
  | percent
  | equal
  | notEqual
  | less
  | lessEqual
  | greater
  | greaterEqual
  | question
  | colon
  | coalesce
  | and
  | or
  | bang
  | dot
  | openBracket
  | closeBracket
  | openParen
  | closeParen
deriving DecidableEq

def Symbol.sign : Symbol → String
  | .plus => "+"
  | .minus => "-"
  | .star => "*"
  | .slash => "/"
  | .percent => "%"
  | .equal => "=="
  | .notEqual => "!="
  | .less => "<"
  | .lessEqual => "<="
  | .greater => ">"
  | .greaterEqual => ">="
  | .question => "?"
  | .colon => ":"
  | .coalesce => "??"
  | .and => "&&"
  | .or => "||"
  | .bang => "!"
  | .dot => "."
  | .openBracket => "["
  | .closeBracket => "]"
  | .openParen => "("
  | .closeParen => ")"

def Symbol.word : Symbol → String
  | .plus => "Plus"
  | .minus => "Minus"
  | .star => "Star"
  | .slash => "Slash"
  | .percent => "Percent"
  | .equal => "Eq"
  | .notEqual => "Ne"
  | .less => "Lt"
  | .lessEqual => "Le"
  | .greater => "Gt"
  | .greaterEqual => "Ge"
  | .question => "Question"
  | .colon => "Colon"
  | .coalesce => "DoubleQuestion"
  | .and => "AndAnd"
  | .or => "OrOr"
  | .bang => "Bang"
  | .dot => "Dot"
  | .openBracket => "LBracket"
  | .closeBracket => "RBracket"
  | .openParen => "LParen"
  | .closeParen => "RParen"

/-- A token of the expression language.  A literal integer fits a signed word. -/
inductive Token
  | symbol (s : Symbol)
  | name (s : String)
  | int (n : Nat) (fits : n < 2 ^ 63)
  | float (x : Float)
  | string (s : String)
  | bool (b : Bool)
  | null
deriving DecidableEq

/-- In messages doubles are positional from 1e-4 up to 1e16, and of two equally near decimals the larger is written. -/
def Token.doubles : Decimal.Form := ⟨-3, 16, .up⟩

def Token.floatWord (x : Float) : String :=
  if x.isFinite then doubles.text x else "inf"

def Token.word : Token → String
  | .symbol s => s.word
  | .name s => "Ident(" ++ Text.quoted s ++ ")"
  | .int n _ => "Int(" ++ toString n ++ ")"
  | .float x => "Float(" ++ floatWord x ++ ")"
  | .string s => "String(" ++ Text.quoted s ++ ")"
  | .bool b => if b then "Bool(true)" else "Bool(false)"
  | .null => "Null"

def Token.wordOrEnd : Option Token → String
  | some t => t.word
  | none => "Eof"

inductive Fault
  | loneEqual
  | loneAmpersand
  | loneBar
  | unclosedString
  | integerTooLarge (digits : String)
  | strangeCharacter (c : Char)
  | tooDeep
  | tooManyOperators
  | expected (wanted : Symbol) (found : Option Token)
  | leftOver (found : Option Token)
  | noOperand (found : Option Token)
  | noFieldName
  | noIndex
  | reported (message : String)
deriving DecidableEq

def Fault.message : Fault → String
  | .loneEqual => "expected '==' for equality comparison"
  | .loneAmpersand => "expected '&&'"
  | .loneBar => "expected '||'"
  | .unclosedString => "unclosed string literal"
  | .integerTooLarge digits => "invalid integer: " ++ digits
  | .strangeCharacter c => "unexpected character: '" ++ c.toString ++ "'"
  | .tooDeep => "expression nested too deeply"
  | .tooManyOperators => "expression has too many operators"
  | .expected wanted found => "expected " ++ wanted.word ++ ", found " ++ Token.wordOrEnd found
  | .leftOver found => "unexpected token after expression: " ++ Token.wordOrEnd found
  | .noOperand found => "unexpected token: " ++ Token.wordOrEnd found
  | .noFieldName => "expected field name after '.'"
  | .noIndex => "expected index or quoted key after '['"
  | .reported message => message

/-- A fault, the byte at which it was noticed, and for a fault within a token the text from there on, at most ten
characters of it. -/
structure SyntaxError where
  fault : Fault
  position : Nat
  context : String
deriving DecidableEq

def SyntaxError.text (e : SyntaxError) : String :=
  "at position " ++ toString e.position ++ ": " ++ e.fault.message

end Stencil
