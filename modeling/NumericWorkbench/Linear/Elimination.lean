import NumericWorkbench.Linear.Pivot
/-! Gaussian elimination with partial pivoting, with all stages of the system or in place. -/
namespace NumericWorkbench
namespace Linear
open Arithmetic
variable {α : Type} [Arithmetic α] {n : Nat}

/-- The system after the elimination of the first `number` columns, and the row that was
exchanged into the place of the last pivot. -/
structure Stage (α : Type) (n : Nat) where
  number : Nat
  pivotRow : Option (Fin n)
  matrix : Mat α n n
  rhs : Vector α n
deriving DecidableEq

/-- Subtract multiples of row `k` from the rows below, so that column `k` becomes zero there. -/
def eliminateColumn (a : Mat α n n) (b : Vector α n) (k : Fin n) : Mat α n n × Vector α n :=
  (Vector.ofFn fun i =>
    if i ≤ k then a.get i
    else
      let factor := a.entry i k/a.entry k k
      Vector.ofFn fun j =>
        if j < k then a.entry i j
        else if j = k then 0.0
        else a.entry i j-factor*a.entry k j,
  Vector.ofFn fun i =>
    if i ≤ k then b.get i else b.get i-a.entry i k/a.entry k k*b.get k)

def Stage.next (s : Stage α n) (k p : Fin n) : Stage α n :=
  let (matrix,rhs) := eliminateColumn (Vec.exchange s.matrix k p) (Vec.exchange s.rhs k p) k
  ⟨k+1,some p,matrix,rhs⟩

def Stage.column (s : Stage α n) (k : Fin n) : Vector α n := Vector.ofFn fun i => s.matrix.entry i k

/-- The stages of an elimination as far as it got, and the error that stopped it. -/
structure Reduction (α : Type) (n : Nat) where
  stages : List (Stage α n)
  stop : Option (Error α)

/-- Eliminate the given columns one after the other. The last column has nothing below its
pivot, so its pivot is only looked at. -/
def reduce (last : Fin n) : Stage α n → List (Fin n) → Reduction α n
  | s,[] =>
    let pivot := s.matrix.entry last last
    ⟨[s],if isUsable pivot then none else some (.singular last pivot)⟩
  | s,k::ks =>
    match choosePivot (s.column k) k with
    | .error e => ⟨[s],some e⟩
    | .ok p =>
      let rest := reduce last (s.next k p) ks
      ⟨s::rest.stages,rest.stop⟩

def reduction (a : Mat α n n) (b : Vector α n) (positive : 0 < n) : Reduction α n :=
  reduce ⟨n-1,by omega⟩ ⟨0,none,a,b⟩ (List.finRange n).dropLast

/-- The solution of a square system, and all stages of the elimination. -/
def solveWithStages {m n p : Nat} (a : Mat α m n) (b : Vector α p) :
    Except (Error α) (Vector α n × List (Stage α n)) :=
  match checkSystem m n p with
  | .error misfit => .error (.dimension misfit)
  | .ok ⟨square,height,positive⟩ =>
    let r := reduction (a.cast square) (b.cast height) positive
    match r.stop,r.stages.getLast? with
    | none,some s => .ok (backSubstitute s.matrix s.rhs,r.stages)
    | some e,_ => .error e
    | none,none => .error (.dimension .empty)

/-- Eliminate the given columns in place, so that only the last stage is left. -/
def eliminate (last : Fin n) :
    Mat α n n → Vector α n → List (Fin n) → Except (Error α) (Mat α n n × Vector α n)
  | a,b,[] =>
    let pivot := a.entry last last
    if isUsable pivot then .ok (a,b) else .error (.singular last pivot)
  | a,b,k::ks => do
    let p ← choosePivot (Vector.ofFn fun i => a.entry i k) k
    let (a,b) := eliminateColumn (Vec.exchange a k p) (Vec.exchange b k p) k
    eliminate last a b ks

/-- The solution of a square system alone. -/
def solveGauss {m n p : Nat} (a : Mat α m n) (b : Vector α p) :
    Except (Error α) (Vector α n) :=
  match checkSystem m n p with
  | .error misfit => .error (.dimension misfit)
  | .ok ⟨square,height,positive⟩ => do
    let (u,y) ← eliminate ⟨n-1,by omega⟩ (a.cast square) (b.cast height) (List.finRange n).dropLast
    return backSubstitute u y

def Stage.records (s : Stage Float n) : List Log.Record :=
  match s.pivotRow with
  | none => []
  | some p =>
    if p.val+1 = s.number then []
    else [⟨.debug,s!"stage {s.number}: swapping rows {s.number-1} and {p.val}"⟩]

/-- What an elimination tells: nothing if the sizes do not fit. -/
def eliminationRecords {m n p : Nat} (a : Mat Float m n) (b : Vector Float p) :
    List Log.Record :=
  match checkSystem m n p with
  | .error _ => []
  | .ok ⟨square,height,positive⟩ =>
    let r := reduction (a.cast square) (b.cast height) positive
    ⟨.info,s!"Gaussian elimination for a {n}x{n} system"⟩::
      (r.stages.flatMap Stage.records ++ r.stop.toList.flatMap Error.records)

end Linear
end NumericWorkbench
