import NumericWorkbench.Linear.SingularValues
import NumericWorkbench.Log
import NumericWorkbench.Number.Literal
import NumericWorkbench.Number.Text
/-! What the singular values tell about a linear system: how sensitive its solution is, and, if
the matrix is singular, whether there is any solution. -/
namespace NumericWorkbench
namespace Linear

/-- The number of singular values that are not close to zero. -/
def rank {m n : Nat} (a : Mat Float m n) : Nat := ((singularValues a).filter (1e-10 < ·)).length

/-- The ratio of the largest to the smallest singular value, infinite for a singular matrix. -/
def conditionNumber {m n : Nat} (a : Mat Float m n) : Float :=
  let values := singularValues a
  let largest := values.foldl (fun best x => if best < x then x else best) 0.0
  let smallest := values.foldl (fun best x => if x < best then x else best) Number.infinity
  if smallest == 0.0 then Number.infinity else largest/smallest

def isPoorlyConditioned {m n : Nat} (a : Mat Float m n) (threshold : Float) : Bool :=
  threshold < conditionNumber a

def conditionRecords {m n : Nat} (a : Mat Float m n) (threshold : Float) : List Log.Record :=
  if isPoorlyConditioned a threshold then
    [⟨.warn,"The system of linear equations is poorly conditioned. Condition number = " ++
      Number.scientificTo 2 (conditionNumber a)⟩]
  else []

/-- The matrix with the entries `1/(i+j+1)`, which is famous for its large condition number. -/
def hilbert (n : Nat) : Mat Float n n :=
  Mat.ofFn fun i j => 1.0/(Float.ofNat i+Float.ofNat j+1.0)

/-- What a system with a singular matrix is. It has a solution exactly if `A` and `[A b]` have the
same rank, and then there are infinitely many. -/
inductive Solvability where
  | inconsistent (rankA rankAb : Nat)
  | underdetermined (rankA : Nat)
deriving Repr,DecidableEq

def solvability {m n : Nat} (a : Mat Float m n) (b : Vector Float m) : Solvability :=
  let rankA := rank a
  let rankAb := rank (a.augment b)
  if rankA = rankAb then .underdetermined rankA else .inconsistent rankA rankAb

structure HeightMismatch where
  rows : Nat
  entries : Nat
deriving Repr,DecidableEq

/-- The same for a right-hand side of any height. Where `[A b]` is no matrix, nothing can be
said about the system. -/
def diagnose {m n p : Nat} (a : Mat Float m n) (b : Vector Float p) :
    Except HeightMismatch Solvability :=
  if h : p = m then .ok (solvability a (b.cast h)) else .error ⟨m,p⟩

namespace Solvability

def text : Solvability → String
  | inconsistent rankA rankAb =>
    s!"Inconsistent \x7b rank_A: {rankA}, rank_Ab: {rankAb} \x7d"
  | underdetermined rankA => s!"Underdetermined \x7b rank_A: {rankA} \x7d"

def records : Solvability → List Log.Record
  | inconsistent rankA rankAb =>
    [⟨.warn,s!"The system has no solution. rank(A) = {rankA} != rank([A b]) = {rankAb}"⟩]
  | underdetermined _ => []

end Solvability
end Linear
end NumericWorkbench
