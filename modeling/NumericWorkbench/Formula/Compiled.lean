import NumericWorkbench.Formula.Parse
import NumericWorkbench.Log
/-! Formulas that are ready to be evaluated. A formula is refused if it is not a number at zero;
infinite values there, and undefined ones elsewhere, are its own affair. -/
namespace NumericWorkbench

structure Formula where
  source : String
  expr : Formula.Expr
deriving DecidableEq

namespace Formula

def eval (f : Formula) (x : Float) : Float := f.expr.eval x

def compile (source : String) : Except Error Formula := do
  let e ← parse source
  if (e.eval 0).isNaN then throw (.notANumber source)
  return ⟨source,e⟩

def records (source : String) : List Log.Record :=
  match parse source with
  | .error _ => []
  | .ok e =>
    let parsed := ⟨.debug,s!"formula '{source}' parsed into {e.text}"⟩
    let value := e.eval 0
    if value.isNaN then [parsed]
    else
      [parsed,
        ⟨.info,s!"compiled '{source}' ({e.nodeCount} nodes), f(0) = {Number.plain value}"⟩]

end Formula
end NumericWorkbench
