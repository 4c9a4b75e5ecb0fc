import NumericWorkbench.Linear.Mat
import NumericWorkbench.Linear.Error
import NumericWorkbench.Log
/-! The choice of pivots, and the substitutions in triangular systems. -/
namespace NumericWorkbench
namespace Linear
open Arithmetic
variable {α : Type} [Arithmetic α] {n : Nat}

/-- The indices below `k`, in ascending order. -/
def before (k : Fin n) : List (Fin n) := (List.finRange n).filter (· < k)

/-- The indices above `k`, in ascending order. -/
def after (k : Fin n) : List (Fin n) := (List.finRange n).filter (k < ·)

/-- A pivot of smaller magnitude counts as zero. -/
def pivotTolerance : α := 1e-15

def isUsable (pivot : α) : Bool := !decide (magnitude pivot < pivotTolerance) && !isNaN pivot

/-- The first index from `k` on with the largest magnitude. What is not a number is never larger
than anything, and nothing is larger than it. -/
def largestFrom (value : Vector α n) (k : Fin n) : Fin n :=
  (after k).foldl (fun best i => if magnitude (value.get best) < magnitude (value.get i) then i else best) k

def choosePivot (candidates : Vector α n) (k : Fin n) : Except (Error α) (Fin n) :=
  let p := largestFrom candidates k
  if isUsable (candidates.get p) then .ok p else .error (.singular k (candidates.get p))

def zeros : Vector α n := Vector.replicate n 0.0

/-- Unknown `i` of an upper triangular system, once the later ones are known. -/
def backStep (u : Mat α n n) (b : Vector α n) (i : Fin n) (x : Vector α n) : α :=
  (b.get i-sumOver (after i) fun j => u.entry i j*x.get j)/u.entry i i

/-- Solve an upper triangular system from the last row to the first. -/
def backSubstitute (u : Mat α n n) (b : Vector α n) : Vector α n :=
  (List.finRange n).foldr
    (fun i x => Vec.replace x i (backStep u b i x)) zeros

/-- The same for a diagonal that may hold unusable pivots, of which the last is reported. -/
def backSubstituteChecked (u : Mat α n n) (b : Vector α n) : Except (Error α) (Vector α n) :=
  (List.finRange n).foldrM
    (fun i x =>
      if isUsable (u.entry i i) then .ok (Vec.replace x i (backStep u b i x))
      else .error (.singular i (u.entry i i))) zeros

/-- Solve a lower triangular system with ones on the diagonal from the first row to the last. -/
def forwardSubstitute (l : Mat α n n) (b : Vector α n) : Vector α n :=
  (List.finRange n).foldl
    (fun y i =>
      Vec.replace y i (b.get i-sumOver (before i) fun j => l.entry i j*y.get j)) zeros

/-- What an unusable pivot tells; other errors tell nothing. -/
def Error.records : Error Float → List Log.Record
  | .dimension _ => []
  | .singular stage pivot =>
    [⟨.warn,s!"Matrix is singular: pivot candidate {Number.scientific pivot} " ++
      s!"at stage {stage+1} is below 1e-15"⟩]

end Linear
end NumericWorkbench
