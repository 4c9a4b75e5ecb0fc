import NumericWorkbench.Number.Input
import NumericWorkbench.Number.Text
/-! The number format of reports: twelve significant digits, with an exponent for very large and
very small magnitudes. -/
namespace NumericWorkbench
namespace Number

/-- The nearest number that has a decimal of twelve digits. -/
def toTwelve (x : Float) : Float := (read (scientificToChars 11 x)).getD x

def shortChars (x : Float) : List Char :=
  if x.isNaN || x.isInf then plainChars x
  else
    let y := toTwelve x
    let size := y.abs
    if 1e15 ≤ size || (size < 1e-6 && size != 0) then scientificChars y else plainChars y

def short (x : Float) : String := String.ofList (shortChars x)

end Number
end NumericWorkbench
