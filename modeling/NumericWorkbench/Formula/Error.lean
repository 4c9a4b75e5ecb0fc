import NumericWorkbench.Formula.Token
/-! What can be wrong with a formula. Positions are offsets into the normalized formula. -/
namespace NumericWorkbench
namespace Formula

inductive Error where
  | empty
  | unexpectedChar (c : Char) (pos : Nat)
  | unknownIdentifier (name : String) (pos : Nat)
  | invalidNumber (literal : String) (pos : Nat)
  | unexpectedToken (token : Token) (pos : Nat)
  | missingParen (pos : Nat)
  | unexpectedEnd
  | trailingInput (pos : Nat)
  | notANumber (formula : String)
  | tooDeep (pos limit : Nat)
  | tooLong (tokens limit : Nat)
deriving DecidableEq

/-- The wording without its common beginning. -/
def Error.detail : Error → String
  | empty => "empty formula"
  | unexpectedChar c pos => s!"unexpected character '{c}' at {pos}"
  | unknownIdentifier name pos =>
    s!"unknown identifier '{name}' at {pos} (use x, pi, e or func(...))"
  | invalidNumber literal pos => s!"bad number '{literal}' at {pos}"
  | unexpectedToken token pos => s!"unexpected '{token.text}' at {pos}"
  | missingParen pos => s!"missing ')' for '(' at {pos}"
  | unexpectedEnd => "formula ends unexpectedly"
  | trailingInput pos => s!"unexpected input at {pos}"
  | notANumber formula => s!"'{formula}' evaluates to NaN at x = 0"
  | tooDeep pos limit => s!"nesting deeper than {limit} levels at {pos}"
  | tooLong tokens limit => s!"{tokens} tokens, at most {limit} are allowed"

def Error.message (e : Error) : String := "Invalid expression: " ++ e.detail

end Formula
end NumericWorkbench
