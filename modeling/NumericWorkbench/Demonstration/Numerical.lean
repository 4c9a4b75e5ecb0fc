import NumericWorkbench.Demonstration.Shown
import NumericWorkbench.Formula.Compiled
import NumericWorkbench.Linear.System
import NumericWorkbench.Report.Tables
/-! Demonstrations of the numerical methods. -/
namespace NumericWorkbench
namespace Demonstration

def withFormula (source : String) (shown : Formula → Shown) : Shown :=
  match Formula.compile source with
  | .error e => ⟨[e.message],Formula.records source⟩
  | .ok f => ⟨[],Formula.records source⟩ ++ shown f

def bisection (name : String) (f : Float → Float) (a b : Float) (s : Roots.Settings Float)
    (found : Roots.Bisection Float → List String) : Shown :=
  ⟨match Roots.bisect f a b s with
    | .ok r => found r
    | .error e => [e.message],
    Roots.bisectRecords name f a b s⟩

/-- The root of a formula, and an interval on which the signs are equal. -/
def cubic : Shown :=
  withFormula "x^3 - 9x + 4" fun f =>
    let settings := ⟨1e-6,100⟩
    bisection f.source f.eval 0.0 1.0 settings (fun r =>
      [Report.traceTable r.trace,
        s!"root = {Number.plain r.root}, f(root) = {Number.plain r.residual}, " ++
          s!"iterations = {r.iterations}"]) ++
    bisection f.source f.eval 4.0 5.0 settings fun _ => []

/-- The root of a function that is not given by a formula. -/
def fixedPoint : Shown :=
  bisection "cos(x) - x" (fun x => x.cos-x) 0.0 1.0 ⟨1e-10,200⟩ fun r =>
    [s!"cos(x) = x at x = {Number.plain r.root}"]

def wideScan : Shown :=
  withFormula "sin(x) - 0.5x" fun f =>
    let scan := { Roots.Scan.standard with start := -10.0, stop := 10.0 }
    let cells := (Roots.signChanges f.eval scan 1.0).map fun (a,b) =>
      s!"({Number.listed a}, {Number.listed b})"
    ⟨["sign changes with step 1: " ++ listing cells,
      match Roots.scanRoots f.eval scan with
      | .ok roots => Report.rootsTable roots
      | .error e => e.message],
      Roots.scanRecords f.source f.eval scan⟩

def swapMatrix : Mat Float 3 3 :=
  Mat.ofRows [[0.0,2.0,1.0],[1.0,1.0,1.0],[2.0,1.0,0.0]] 3 (by decide)

def elimination {n : Nat} (a : Mat Float n n) (b : Vector Float n) : Shown :=
  ⟨match Linear.solveWithStages a b with
    | .ok (x,stages) =>
      (stages.flatMap fun s =>
        [s!"stage {s.number}",Report.augmentedTable s.matrix s.rhs.toList]) ++
        [Report.vectorTable "x" x.toList]
    | .error e => [e.message],
    Linear.eliminationRecords a b⟩

def factorization {n : Nat} (a : Mat Float n n) (b : Vector Float n) : Shown :=
  ⟨match Linear.factorize a with
    | .error e => [e.message]
    | .ok factors =>
      ["P = ",Report.matrixTable factors.permutation,
        "L = ",Report.matrixTable factors.lower,
        "U = ",Report.matrixTable factors.upper,
        match factors.solve b with
        | .ok x => Report.vectorTable "x" x.toList
        | .error e => e.message],
    Linear.factorizationRecords a⟩

def bothMethods : Shown :=
  let b : Vector Float 3 := Vector.ofFn fun i => if i = 0 then 5.0 else 4.0
  elimination swapMatrix b ++ factorization swapMatrix b

/-- A system that is hard to solve, and how far off the computed solution is. -/
def hilbert (n : Nat) : Shown :=
  let h := Linear.hilbert n
  let ones : Vector Float n := Vector.replicate n 1.0
  ⟨match Linear.factorize h >>= fun factors => factors.solve (h.mulVec ones) with
    | .ok x =>
      let distance := Linear.length (x.zipWith (· - ·) ones)
      [s!"n = {n}, cond = {Number.coarse (Linear.conditionNumber h)}, " ++
        s!"|x - x_true| = {Number.coarse distance}"]
    | .error e => [s!"n = {n}: {e.message}"],
    Linear.factorizationRecords h⟩

/-- A singular system, and whether it has solutions. -/
def singular (b : List Float) (h : b.length = 2) : Shown :=
  let a : Mat Float 2 2 := Mat.ofRows [[1.0,2.0],[2.0,4.0]] 2 (by decide)
  let b : Vector Float 2 := Vector.ofFn fun i => b.get (i.cast h.symm)
  let solvability := Linear.solvability a b
  match Linear.solveWithStages a b with
  | .ok _ => ⟨[],Linear.eliminationRecords a b⟩
  | .error e =>
    ⟨[s!"{e.message}: {solvability.text}"],Linear.eliminationRecords a b ++ solvability.records⟩

def numerical : Nat → Shown
  | 0 => cubic
  | 1 => fixedPoint
  | 2 => wideScan
  | 3 => bothMethods
  | 4 => .all ([4,8,12].map hilbert)
  | 5 => singular [1.0,2.0] rfl ++ singular [1.0,3.0] rfl
  | n => unknown n

end Demonstration
end NumericWorkbench
