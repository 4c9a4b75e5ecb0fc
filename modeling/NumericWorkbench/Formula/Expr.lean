import NumericWorkbench.Formula.Elementary
import NumericWorkbench.Number.Text
/-! Expression trees of one variable: their value, their text and their size. -/
namespace NumericWorkbench
namespace Formula

inductive Operation where
  | add | sub | mul | div | pow
deriving Repr,DecidableEq

namespace Operation

def symbol : Operation → Char
  | add => '+'
  | sub => '-'
  | mul => '*'
  | div => '/'
  | pow => '^'

def apply : Operation → Float → Float → Float
  | add,x,y => x+y
  | sub,x,y => x-y
  | mul,x,y => x*y
  | div,x,y => x/y
  | pow,x,y => x.pow y

end Operation

/-- Constants are kept by value, so `pi` and `e` leave no trace. -/
inductive Expr where
  | var
  | const (value : Float)
  | binary (op : Operation) (left right : Expr)
  | apply (f : Elementary) (argument : Expr)
deriving DecidableEq

namespace Expr

/-- The value at `x`, with no error for what is undefined: such a value is not a number or
infinite. -/
def eval (x : Float) : Expr → Float
  | var => x
  | const value => value
  | binary op left right => op.apply (left.eval x) (right.eval x)
  | apply f argument => f.apply (argument.eval x)

/-- Every operation in brackets, with a given name for the variable. -/
def chars (name : List Char) : Expr → List Char
  | var => name
  | const value => Number.plainChars value
  | binary op left right =>
    '('::(left.chars name ++ ' '::op.symbol :: ' '::(right.chars name ++ [')']))
  | apply f argument => f.name.toList ++ '('::(argument.chars name ++ [')'])

def textWith (name : String) (e : Expr) : String := String.ofList (e.chars name.toList)

def text (e : Expr) : String := e.textWith "x"

def hasVariable : Expr → Bool
  | var => true
  | const _ => false
  | binary _ left right => left.hasVariable || right.hasVariable
  | apply _ argument => argument.hasVariable

def nodeCount : Expr → Nat
  | var => 1
  | const _ => 1
  | binary _ left right => 1+left.nodeCount+right.nodeCount
  | apply _ argument => 1+argument.nodeCount

/-- The opposite of an expression, as a product. -/
def neg (e : Expr) : Expr := binary .mul (const (-1)) e

/-- A minus sign in front of a constant belongs to the constant. -/
def signed : Expr → Expr
  | const value => const (-value)
  | e => e.neg

end Expr
end Formula
end NumericWorkbench
