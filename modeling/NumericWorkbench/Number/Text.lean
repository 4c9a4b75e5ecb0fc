import NumericWorkbench.Number.Shortest
import NumericWorkbench.Number.Rounding
/-! The texts of numbers. All of them show the fewest digits that read back, apart from
`scientificTo` with its fixed number of places. -/
namespace NumericWorkbench
namespace Number

def sign (negative : Bool) : List Char := if negative then ['-'] else []

/-- The digits of a decimal around a point, with zeros up to the point where they are missing. -/
def positional (d : Decimal) : List Char :=
  let ds := digitsOf d.digits
  let point := (ds.length : Int)+d.exponent
  if 0 ≤ d.exponent then ds ++ List.replicate d.exponent.toNat '0'
  else if 0 < point then ds.take point.toNat ++ '.'::ds.drop point.toNat
  else ['0','.'] ++ List.replicate (-point).toNat '0' ++ ds

/-- The first digit has the power of ten `power`; a point follows it if there are more. -/
def withExponent (ds : List Char) (power : Int) : List Char :=
  let mantissa :=
    match ds with
    | c::f::fs => c :: '.'::f::fs
    | _ => ds
  mantissa ++ 'e'::(sign (power < 0) ++ digitsOf power.natAbs)

def Decimal.scientific (d : Decimal) : List Char :=
  let ds := digitsOf d.digits
  withExponent ds ((ds.length : Int)+d.exponent-1)

/-- Write a finite magnitude with `write` and say the rest in words. -/
def written (write : Binary → List Char) (x : Float) : List Char :=
  match shape x with
  | .undefined => ['N','a','N']
  | .infinite negative => sign negative ++ ['i','n','f']
  | .finite negative b => sign negative ++ write b

/-- Positional whatever the magnitude: no exponent, no point in a whole number. -/
def plainChars (x : Float) : List Char :=
  written (fun b => if b.mantissa = 0 then ['0'] else positional (shortest b)) x

def plain (x : Float) : String := String.ofList (plainChars x)

/-- One digit before the point and always an exponent: `1.5e-7`, `0e0`. -/
def scientificChars (x : Float) : List Char :=
  written (fun b => (if b.mantissa = 0 then ⟨0,0⟩ else shortest b : Decimal).scientific) x

def scientific (x : Float) : String := String.ofList (scientificChars x)

/-- One digit before the point and exactly `places` digits after it. -/
def scientificToChars (places : Nat) (x : Float) : List Char :=
  written (fun b =>
    if b.mantissa = 0 then withExponent (List.replicate (places+1) '0') 0
    else (roundTo (places+1) b).scientific) x

def scientificTo (places : Nat) (x : Float) : String := String.ofList (scientificToChars places x)

/-- Six digits of a number of moderate size. It serves for numbers whose further digits are noise,
and of which nothing is known beyond some size. -/
def coarse (x : Float) : String := if x < 1e8 then scientificTo 5 x else "huge"

/-- The text in listings of raw values: positional between `1e-5` and `1e16`, and then always
with a point. -/
def listed (x : Float) : String :=
  let size := x.abs
  if x.isNaN || x.isInf then plain x
  else if size == 0 || (1e-5 ≤ size && size < 1e16) then
    let cs := plainChars x
    String.ofList (if cs.contains '.' then cs else cs ++ ['.','0'])
  else scientific x

end Number
end NumericWorkbench
