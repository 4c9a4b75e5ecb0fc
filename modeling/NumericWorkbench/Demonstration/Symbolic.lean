import NumericWorkbench.Demonstration.Shown
import NumericWorkbench.Formula.Compiled
/-! Demonstrations of formulas: trees, notations, tokens, mistakes. -/
namespace NumericWorkbench
namespace Demonstration
open Formula

def tree : Shown :=
  let source := "2x^2 + 3sin(x) - e^x"
  ⟨match parse source with
    | .error e => [e.message]
    | .ok e =>
      [s!"parsed_expression {e.text}",
        s!"{source}, sym to string: {e.text}",
        s!"number of nodes {e.nodeCount}",
        s!"f(1) = {Number.plain (e.eval 1.0)}",
        "f(0), f(0.5), f(1) = " ++
          listing ([0.0,0.5,1.0].map fun x => Number.listed (e.eval x))],
    []⟩

/-- A formula in a field of the given width, and what compiling it gives. -/
def attempt (width : Nat) (source : String) (found : Formula → String) : Shown :=
  let result :=
    match compile source with
    | .ok f => found f
    | .error e => e.message
  ⟨[s!"{alignRight width source} -> {result}"],Formula.records source⟩

/-- The ways in which people write the same things. -/
def notations : Shown :=
  .all <| ["2x","2*x","x(x+1)","(x+1)(x-1)","sqrt x","1,5x","pi x","X^2"].map fun source =>
    attempt 12 source fun f => s!"{f.expr.text} f(2) = {Number.plain (f.eval 2.0)}"

def tokenLabel : Token → String
  | .number x => s!"Number({Number.listed x})"
  | .var => "Variable"
  | .constant c => s!"Constant({c.name.capitalize})"
  | .function f => s!"Function({f.name.capitalize})"
  | .plus => "Plus"
  | .minus => "Minus"
  | .star => "Star"
  | .slash => "Slash"
  | .caret => "Caret"
  | .leftParen => "LeftParen"
  | .rightParen => "RightParen"

/-- The tokens of a formula with the products that it leaves out. -/
def tokens : Shown :=
  ⟨match tokenize "3x sin(2x)" with
    | .error e => [e.message]
    | .ok lexemes => lexemes.map fun l => s!"{alignRight 3 (toString l.pos)}: {tokenLabel l.token}",
    []⟩

def mistakes : Shown :=
  .all <| ["","2 +* x","sin(x","x)","foo(x)","y + 1","ln(x)","1/0*0"].map fun source =>
    attempt 8 source fun f => s!"ok, f(1) = {Number.plain (f.eval 1.0)}"

def symbolic : Nat → Shown
  | 0 => tree
  | 1 => notations
  | 2 => tokens
  | 3 => mistakes
  | n => unknown n

end Demonstration
end NumericWorkbench
