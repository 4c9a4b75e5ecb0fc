import NumericWorkbench.Formula.Elementary
import NumericWorkbench.Number.Text
/-! The tokens of a formula, and the products that are written by mere juxtaposition. -/
namespace NumericWorkbench
namespace Formula

inductive Token where
  | number (value : Float)
  | var
  | constant (c : Constant)
  | function (f : Elementary)
  | plus | minus | star | slash | caret
  | leftParen | rightParen
deriving DecidableEq

namespace Token

def text : Token → String
  | number value => Number.plain value
  | var => "x"
  | constant c => c.name
  | function f => f.name
  | plus => "+"
  | minus => "-"
  | star => "*"
  | slash => "/"
  | caret => "^"
  | leftParen => "("
  | rightParen => ")"

def isNumber : Token → Bool
  | number _ => true
  | _ => false

def endsOperand : Token → Bool
  | number _ | var | constant _ | rightParen => true
  | _ => false

def startsOperand : Token → Bool
  | number _ | var | constant _ | function _ | leftParen => true
  | _ => false

/-- Two neighbours that mean a product. Two numbers side by side are a mistake instead. -/
def juxtaposed (a b : Token) : Bool :=
  a.endsOperand && b.startsOperand && !(a.isNumber && b.isNumber)

end Token

/-- A token and the offset of its first character. -/
structure Lexeme where
  token : Token
  pos : Nat
deriving DecidableEq

/-- Write the products that are only implied. The sign takes the place of the second factor. -/
def insertProducts : List Lexeme → List Lexeme
  | a::b::rest =>
    if a.token.juxtaposed b.token then a::⟨.star,b.pos⟩::insertProducts (b::rest)
    else a::insertProducts (b::rest)
  | ls => ls

end Formula
end NumericWorkbench
