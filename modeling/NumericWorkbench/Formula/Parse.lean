import NumericWorkbench.Formula.Error
import NumericWorkbench.Formula.Expr
import NumericWorkbench.Formula.Scan
/-! From tokens to an expression tree, by the grammar

    expression = term { (+|-) term }
    term       = unary { (*|/) unary }
    unary      = (+|-) unary | power
    power      = primary [ ^ unary ]
    primary    = number | x | constant | function ( expression ) | ( expression )

A power binds tighter than a sign in front of it and takes a sign in its exponent. Every way
back from an inner rule to an outer one leads through `unary`, which is why the nesting of
brackets, signs and exponents is counted there and nowhere else. -/
namespace NumericWorkbench
namespace Formula

/-- The deepest nesting of brackets, signs and exponents. -/
def maxNesting : Nat := 256

def maxTokens : Nat := 4096

/-- Reads an expression off the front of a list of tokens. -/
abbrev Reader := List Lexeme → Except Error (Expr × List Lexeme)

def startOf : List Lexeme → Nat
  | [] => 0
  | t::_ => t.pos

def additive : Token → Option Operation
  | .plus => some .add
  | .minus => some .sub
  | _ => none

def multiplicative : Token → Option Operation
  | .star => some .mul
  | .slash => some .div
  | _ => none

/-- Go on with a chain of operands whose left part is already read, at most `n` operators long. -/
def chainRest (op : Token → Option Operation) (operand : Reader) :
    Nat → Expr → Reader
  | 0,left,ts => .ok (left,ts)
  | _+1,left,[] => .ok (left,[])
  | n+1,left,t::ts =>
    match op t.token with
    | none => .ok (left,t::ts)
    | some o => do
      let (right,rest) ← operand ts
      chainRest op operand n (.binary o left right) rest

/-- Operands with operators between them, grouped from the left. There are no more operators
than tokens. -/
def chain (op : Token → Option Operation) (operand : Reader) : Reader := fun ts => do
  let (first,rest) ← operand ts
  chainRest op operand rest.length first rest

def expression (unary : Reader) : Reader := chain additive (chain multiplicative unary)

/-- The inside of a bracket and its end. The bracket began at `start`. -/
def bracketed (unary : Reader) (start : Nat) : Reader
  | ⟨.rightParen,pos⟩::_ => .error (.unexpectedToken .rightParen pos)
  | ts => do
    match ← expression unary ts with
    | (inner,⟨.rightParen,_⟩::rest) => return (inner,rest)
    | _ => throw (.missingParen start)

def primary (unary : Reader) : Reader
  | [] => .error .unexpectedEnd
  | t::ts =>
    match t.token with
    | .number value => .ok (.const value,ts)
    | .var => .ok (.var,ts)
    | .constant c => .ok (.const c.value,ts)
    | .function f =>
      match ts with
      | ⟨.leftParen,_⟩::rest => do
        let (argument,rest) ← bracketed unary t.pos rest
        return (.apply f argument,rest)
      | _ => .error (.unexpectedToken t.token t.pos)
    | .leftParen => bracketed unary t.pos ts
    | _ => .error (.unexpectedToken t.token t.pos)

def power (unary : Reader) : Reader := fun ts => do
  match ← primary unary ts with
  | (base,⟨.caret,_⟩::rest) =>
    let (exponent,rest) ← unary rest
    return (.binary .pow base exponent,rest)
  | (base,rest) => return (base,rest)

def signedPower (unary : Reader) : Reader
  | ⟨.plus,_⟩::ts => unary ts
  | ⟨.minus,_⟩::ts => do
    let (inner,rest) ← unary ts
    return (inner.signed,rest)
  | ts => power unary ts

/-- A unary with at most `levels` of them inside one another, itself included. -/
def unary : Nat → Reader
  | 0 => fun ts => .error (.tooDeep (startOf ts) maxNesting)
  | levels+1 => signedPower (unary levels)

/-- The tree of a list of tokens, all of which have to be used. -/
def parseTokens (ts : List Lexeme) : Except Error Expr :=
  if ts.isEmpty then .error .empty
  else if maxTokens < ts.length then .error (.tooLong ts.length maxTokens)
  else do
    match ← expression (unary maxNesting) ts with
    | (e,[]) => return e
    | (_,⟨.rightParen,pos⟩::_) => throw (.unexpectedToken .rightParen pos)
    | (_,t::_) => throw (.trailingInput t.pos)

def parse (formula : String) : Except Error Expr := do
  parseTokens (← tokenize formula)

end Formula
end NumericWorkbench
