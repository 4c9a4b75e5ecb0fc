import NumericWorkbench.Linear.Pivot
/-! The factors of `P·A = L·U` with partial pivoting: `P` exchanges rows, `L` is lower triangular
with ones on the diagonal, `U` is upper triangular. -/
namespace NumericWorkbench
namespace Linear
open Arithmetic
variable {α : Type} [Arithmetic α] {n : Nat}

/-- The factors of a matrix; row `i` of `P·A` is row `order[i]` of `A`. -/
structure Factors (α : Type) (n : Nat) where
  order : Vector (Fin n) n
  lower : Mat α n n
  upper : Mat α n n
deriving DecidableEq

/-- A factorization on its way: the rows of `A` in their present order, and the factors as far
as they are known, with zeros elsewhere. -/
structure Progress (α : Type) (n : Nat) where
  rows : Mat α n n
  factors : Factors α n

/-- What is left of entry `(i,j)` after the products of the first `k` columns of `L` and rows
of `U` are taken off. -/
def remainder (rows lower upper : Mat α n n) (k i j : Fin n) : α :=
  rows.entry i j-sumOver (before k) fun t => lower.entry i t*upper.entry t j

/-- Exchange row `k` with the pivot row, then compute row `k` of `U` and column `k` of `L`. -/
def Progress.next (s : Progress α n) (k : Fin n) : Except (Error α) (Progress α n) := do
  let candidates := Vector.ofFn fun i => remainder s.rows s.factors.lower s.factors.upper k i k
  let p ← choosePivot candidates k
  let rows := Vec.exchange s.rows k p
  let order := Vec.exchange s.factors.order k p
  let lower := Vec.exchange s.factors.lower k p
  let upper := s.factors.upper
  let row := Vector.ofFn fun j => if j < k then 0.0 else remainder rows lower upper k k j
  let column := Vector.ofFn fun i =>
    if i < k then 0.0 else if i = k then 1.0 else remainder rows lower upper k i k/row.get k
  return ⟨rows,order,Vector.ofFn fun i => Vec.replace (lower.get i) k (column.get i),
    Vec.replace upper k row⟩

def factorizeSquare (a : Mat α n n) : Except (Error α) (Factors α n) := do
  let blank := Vector.replicate n zeros
  let start : Progress α n := ⟨a,Vector.ofFn id,blank,blank⟩
  let done ← (List.finRange n).foldlM Progress.next start
  return done.factors

def factorize {m n : Nat} (a : Mat α m n) : Except (Error α) (Factors α n) :=
  match checkSquare m n with
  | .error misfit => .error (.dimension misfit)
  | .ok ⟨square,_⟩ => factorizeSquare (a.cast square)

/-- Solve `A·x = b` from given factors: first `L·y = P·b`, then `U·x = y`. The factors may come
from elsewhere, so their sizes and the diagonal of `U` are looked at. -/
def solveFactored {pr pc lr lc m n r : Nat} (p : Mat α pr pc) (l : Mat α lr lc) (u : Mat α m n)
    (b : Vector α r) : Except (Error α) (Vector α n) :=
  match checkSystem m n r with
  | .error misfit => .error (.dimension misfit)
  | .ok ⟨square,height,_⟩ =>
    if fits : (pr = n ∧ pc = n) ∧ lr = n ∧ lc = n then
      let p : Mat α n n := (p.map fun row => row.cast fits.1.2).cast fits.1.1
      let l : Mat α n n := (l.map fun row => row.cast fits.2.2).cast fits.2.1
      let y := forwardSubstitute l (p.mulVec (b.cast height))
      backSubstituteChecked (u.cast square) y
    else .error (.dimension (.factors n (pr,pc) (lr,lc)))

namespace Factors

def permutation (f : Factors α n) : Mat α n n := Mat.permutation f.order

def solve {r : Nat} (f : Factors α n) (b : Vector α r) : Except (Error α) (Vector α n) :=
  solveFactored f.permutation f.lower f.upper b

/-- `L·U`, which is `P·A` up to rounding. -/
def product (f : Factors α n) : Mat α n n := f.lower.mul f.upper

end Factors

/-- Follow an order from `i` until a visited index comes, and count the steps. -/
def walkCycle (order : Vector (Fin n) n) : Nat → Fin n → Vector Bool n → Nat × Vector Bool n
  | 0,_,visited => (0,visited)
  | fuel+1,i,visited =>
    if visited.get i then (0,visited)
    else
      let (length,visited) := walkCycle order fuel (order.get i) (Vec.replace visited i true)
      (length+1,visited)

/-- Whether an order is an odd permutation: every cycle of even length changes the sign. -/
def isOdd (order : Vector (Fin n) n) : Bool :=
  let step := fun (odd,visited) start =>
    if visited.get start then (odd,visited)
    else
      let (length,visited) := walkCycle order n start visited
      (if length % 2 = 0 then !odd else odd,visited)
  ((List.finRange n).foldl step (false,Vector.replicate n false)).1

def Factors.determinant (f : Factors α n) : α :=
  (if isOdd f.order then -1.0 else 1.0)*Arithmetic.product f.upper.diagonal

def orderText (order : Vector (Fin n) n) : String :=
  "[" ++ ", ".intercalate (order.toList.map fun i => toString i.val) ++ "]"

/-- What a factorization tells: nothing if the matrix is not square. -/
def factorizationRecords {m n : Nat} (a : Mat Float m n) : List Log.Record :=
  match checkSquare m n with
  | .error _ => []
  | .ok ⟨square,_⟩ =>
    ⟨.info,s!"LU factorization of a {n}x{n} matrix"⟩::
      match factorizeSquare (a.cast square) with
      | .error e => e.records
      | .ok f => [⟨.info,s!"LU factorization done, row order {orderText f.order}"⟩]

end Linear
end NumericWorkbench
