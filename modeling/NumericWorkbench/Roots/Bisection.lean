import NumericWorkbench.Arithmetic
import NumericWorkbench.Log
import NumericWorkbench.Roots.Error
/-! Roots by halving an interval at whose ends the function has opposite signs. Every step is
kept, so that the whole search can be shown. -/
namespace NumericWorkbench
namespace Roots
open Arithmetic
variable {α : Type} [Arithmetic α]

structure Settings (α : Type) where
  tolerance : α
  maxIterations : Nat
deriving DecidableEq

namespace Settings

def standard : Settings α := ⟨1e-6,100⟩

def validate (s : Settings α) : Except (Error α) Unit :=
  if !isFinite s.tolerance || s.tolerance ≤ 0.0 then
    .error (.badSetting (.tolerance s.tolerance))
  else if s.maxIterations = 0 then .error (.badSetting .maxIterations)
  else .ok ()

end Settings

/-- One step: the bracket, its midpoint and the value there. Steps count from one. -/
structure Step (α : Type) where
  index : Nat
  left : α
  right : α
  midpoint : α
  value : α
deriving DecidableEq

structure Bisection (α : Type) where
  trace : List (Step α)
  root : α
  residual : α
  /-- Whether the tolerance was met before the steps ran out. -/
  converged : Bool
deriving DecidableEq

def Bisection.iterations (r : Bisection α) : Nat := r.trace.length

/-- Make one step from a bracket and then at most `more` further ones. The steps before, the last
one first, are in `before`. Only the value at the left end is kept: a change of sign on the left
half moves the right end. -/
def search (f : α → α) (tolerance : α) (more index : Nat) (left right fLeft : α)
    (before : List (Step α)) : Bisection α :=
  let midpoint := (left+right)/2.0
  let value := f midpoint
  let steps := ⟨index,left,right,midpoint,value⟩::before
  if magnitude value < tolerance || magnitude (right-left)/2.0 < tolerance then
    ⟨steps.reverse,midpoint,value,true⟩
  else
    match more with
    | 0 => ⟨steps.reverse,midpoint,value,false⟩
    | more+1 =>
      if fLeft*value < 0.0 then search f tolerance more (index+1) left midpoint fLeft steps
      else search f tolerance more (index+1) midpoint right value steps

/-- Search between `a` and `b`, in either order. Running out of steps is no error. -/
def bisect (f : α → α) (a b : α) (s : Settings α) : Except (Error α) (Bisection α) := do
  s.validate
  if !isFinite a || !isFinite b then throw (.badSetting (.infiniteEnds a b))
  if a == b then throw (.badSetting (.equalEnds a b))
  let fa := f a
  let fb := f b
  if !isFinite fa || !isFinite fb then throw (.undefinedAtEnds a fa b fb)
  if 0.0 ≤ fa*fb then throw (.sameSign fa fb)
  return search f s.tolerance (s.maxIterations-1) 1 a b fa []

def stepRecord (t : Step Float) : Log.Record :=
  ⟨.debug,s!"iteration {t.index}: {interval t.left t.right}, " ++
    s!"m = {Number.plain t.midpoint}, f(m) = {Number.plain t.value}"⟩

def endRecord (s : Settings Float) (r : Bisection Float) : Log.Record :=
  let place := s!"x = {Number.plain r.root}, f(x) = {Number.plain r.residual}"
  if r.converged then
    ⟨.info,s!"bisection converged after {r.iterations} iterations: {place}"⟩
  else
    ⟨.warn,s!"bisection stopped after {r.iterations} iterations " ++
      s!"without reaching tolerance {Number.plain s.tolerance}: {place}"⟩

def bisectRecords (name : String) (f : Float → Float) (a b : Float) (s : Settings Float) :
    List Log.Record :=
  match bisect f a b s with
  | .error _ => []
  | .ok r =>
    let start := s!"bisection for {name} on {interval a b}, " ++
      s!"tolerance {Number.plain s.tolerance}, max iterations {s.maxIterations}"
    ⟨.info,start⟩::(r.trace.map stepRecord ++ [endRecord s r])

end Roots
end NumericWorkbench
