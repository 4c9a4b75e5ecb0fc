import NumericWorkbench.Formula.Error
import NumericWorkbench.Number.Literal
import NumericWorkbench.Text.Alphabetic
import NumericWorkbench.Text.Blank
import NumericWorkbench.Text.Lowercase
/-! From the text of a formula to its tokens. -/
namespace NumericWorkbench
namespace Formula

/-- Blanks and the case of letters do not count in a formula. -/
def normalize (cs : List Char) : List Char :=
  (cs.filter fun c => !Text.isBlank c).flatMap Text.lowercase

def isWordChar (c : Char) : Bool := c.isAlphanum || c == '_'

/-- The exponent at the start of a text, if a digit belongs to it. -/
def exponentAt : List Char → List Char
  | 'e' :: '+' :: cs =>
    let ds := cs.takeWhile Char.isDigit
    if ds.isEmpty then [] else 'e' :: '+' :: ds
  | 'e' :: '-' :: cs =>
    let ds := cs.takeWhile Char.isDigit
    if ds.isEmpty then [] else 'e' :: '-' :: ds
  | 'e'::cs =>
    let ds := cs.takeWhile Char.isDigit
    if ds.isEmpty then [] else 'e'::ds
  | _ => []

/-- The number literal at the start of a text: digits, a point and digits, an exponent, where
each part may be missing. -/
def literalAt (cs : List Char) : List Char :=
  let whole := cs.takeWhile Char.isDigit
  match cs.dropWhile Char.isDigit with
  | '.'::rest =>
    whole ++ '.'::(rest.takeWhile Char.isDigit ++ exponentAt (rest.dropWhile Char.isDigit))
  | rest => whole ++ exponentAt rest

/-- The function whose name stands at the start of a text with a bracket directly behind it,
and the length of the name. -/
def functionAt (cs : List Char) : Option (Elementary × Nat) :=
  Elementary.all.findSome? fun f =>
    f.spellings.findSome? fun name =>
      if (name.toList ++ ['(']).isPrefixOf cs then some (f,name.length) else none

/-- The token that starts with the letter or underscore `c`, and its length. The letters of a
function name are never taken for the variable, and an `e` stands alone to be the constant. -/
def wordAt (pos : Nat) (c : Char) (cs : List Char) : Except Error (Token × Nat) :=
  match functionAt (c::cs) with
  | some (f,length) => .ok (.function f,length)
  | none =>
    if c = 'p' ∧ cs.head? = some 'i' then .ok (.constant .pi,2)
    else if c = 'e' ∧ !cs.head?.any isWordChar then .ok (.constant .e,1)
    else if c = 'x' then .ok (.var,1)
    else
      let word := (c::cs).takeWhile fun d => isWordChar d || Text.isAlphabetic d
      .error (.unknownIdentifier (String.ofList word) pos)

def tokenAt (pos : Nat) (c : Char) (cs : List Char) : Except Error (Token × Nat) :=
  if c.isDigit || c = '.' then
    let literal := literalAt (c::cs)
    match Number.readMagnitude literal with
    | some value => .ok (.number value,literal.length)
    | none => .error (.invalidNumber (String.ofList literal) pos)
  else
    match c with
    | '+' => .ok (.plus,1)
    | '-' => .ok (.minus,1)
    | '*' => if cs.head? = some '*' then .ok (.caret,2) else .ok (.star,1)
    | '/' => .ok (.slash,1)
    | '^' => .ok (.caret,1)
    | '(' => .ok (.leftParen,1)
    | ')' => .ok (.rightParen,1)
    | _ =>
      if Text.isAlphabetic c || c = '_' then wordAt pos c cs
      else .error (.unexpectedChar c pos)

/-- Read the tokens from the offset `pos` on, after `skip` characters that belong to a token
already read. -/
def scanFrom : Nat → Nat → List Char → Except Error (List Lexeme)
  | _,_,[] => .ok []
  | pos,skip+1,_::cs => scanFrom (pos+1) skip cs
  | pos,0,c::cs => do
    let (token,length) ← tokenAt pos c cs
    let rest ← scanFrom (pos+1) (length-1) cs
    return ⟨token,pos⟩::rest

/-- The tokens of a normalized formula, without the implied products. -/
def scan (cs : List Char) : Except Error (List Lexeme) := scanFrom 0 0 cs

def tokenize (formula : String) : Except Error (List Lexeme) :=
  (scan (normalize formula.toList)).map insertProducts

end Formula
end NumericWorkbench
