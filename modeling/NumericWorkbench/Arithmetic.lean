import NumericWorkbench.Number.Binary
/-! The arithmetic in which the numerical methods are written. No law is asked for, so a method
runs on floating-point numbers, with rounding, overflow and undefined results, and can be read
over the rationals or over any other numbers as well. -/
namespace NumericWorkbench

class Arithmetic (α : Type) extends Add α, Sub α, Mul α, Div α, Neg α, LT α, LE α, BEq α,
    OfScientific α where
  decLt : DecidableLT α
  decLe : DecidableLE α
  /-- The size without the sign. -/
  magnitude : α → α
  ofNat : Nat → α
  isFinite : α → Bool
  isNaN : α → Bool
  /-- The whole part as a count, zero if there is none. -/
  toCount : α → Nat
  /-- The order in which results are listed, which has a place for every value. -/
  precedes : α → α → Bool

attribute [reducible,instance] Arithmetic.decLt Arithmetic.decLe

namespace Arithmetic
variable {α : Type} [Arithmetic α]

/-- Add up from the left. Negative zero is the start, since it changes nothing, not even the sign
of a zero. -/
def sum (xs : List α) : α := xs.foldl (· + ·) (-0.0)

def sumOver {ι : Type} (is : List ι) (f : ι → α) : α := sum (is.map f)

/-- Add up from the left, beginning with the first number itself. -/
def total : List α → α
  | [] => 0.0
  | x::xs => xs.foldl (· + ·) x

def product (xs : List α) : α := xs.foldl (· * ·) 1.0

end Arithmetic

/-- The place of a floating-point number in the order of the bits: negative numbers by
descending magnitude, then the others by ascending one, and `-0` before `0`. -/
def Number.orderKey (x : Float) : Int :=
  let n := x.toBits.toNat
  if n < Number.signUnit then n else (Number.signUnit : Int)-1-n

instance : Arithmetic Float where
  decLt := inferInstance
  decLe := inferInstance
  magnitude := Float.abs
  ofNat := Float.ofNat
  isFinite := Float.isFinite
  isNaN := Float.isNaN
  toCount x := x.toUInt64.toNat
  precedes x y := Number.orderKey x ≤ Number.orderKey y

end NumericWorkbench
