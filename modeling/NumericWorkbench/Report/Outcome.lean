import NumericWorkbench.Report.Tables
import NumericWorkbench.Task.Run
/-! Reports of what a task has found. -/
namespace NumericWorkbench
namespace Report

def unlines (lines : List String) : String := String.join (lines.map (· ++ "\n"))

def bisectionReport (f : Formula) (r : Roots.Bisection Float) : List String :=
  [s!"Bisection for f(x) = {f.source}",
    traceTable r.trace,
    s!"root x = {Number.short r.root}, f(x) = {Number.short r.residual}, " ++
      s!"{r.iterations} iterations" ++ (if r.converged then "" else " (iteration limit reached)")]

def scanReport (f : Formula) (c : Roots.Scan Float) (roots : List (Roots.Root Float)) :
    List String :=
  [s!"Roots of f(x) = {f.source} on [{Number.short c.start}, {Number.short c.stop}]",
    if roots.isEmpty then "no roots found" else rootsTable roots]

def stageReport {n : Nat} (s : Linear.Stage Float n) : List String :=
  [match s.pivotRow with
    | none => s!"stage {s.number}: initial system"
    | some p => s!"stage {s.number}: pivot row {p.val+1}",
    augmentedTable s.matrix s.rhs.toList]

def linearReport (s : Linear.Solution) : List String :=
  let elimination :=
    match s.gauss with
    | none => []
    | some (x,stages) =>
      ["Gaussian elimination with partial pivoting"] ++ stages.flatMap stageReport ++
        [vectorTable "x" x.toList]
  let factorization :=
    match s.lu with
    | none => []
    | some (factors,x) =>
      ["LU factorization, P·A = L·U",
        "P =",matrixTable factors.permutation,
        "L =",matrixTable factors.lower,
        "U =",matrixTable factors.upper,
        s!"det(A) = {Number.short factors.determinant}",
        vectorTable "x" x.toList]
  [s!"Linear system ({s.method.name} method)",
    augmentedTable s.system.matrix s.system.rhs.toList] ++ elimination ++ factorization ++
    [s!"condition number: {Number.short s.conditionNumber}"]

def outcomeLines : Task.Outcome → List String
  | .evaluated f values => [s!"f(x) = {f.source}",evaluationTable values]
  | .bisected f r => bisectionReport f r
  | .scanned f c roots => scanReport f c roots
  | .solved s => linearReport s

/-- The report of an outcome. Every line ends with a line feed. -/
def outcome (o : Task.Outcome) : String := unlines (outcomeLines o)

end Report
end NumericWorkbench
