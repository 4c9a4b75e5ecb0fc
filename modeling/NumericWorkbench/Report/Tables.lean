import NumericWorkbench.Linear.Mat
import NumericWorkbench.Number.Short
import NumericWorkbench.Report.Table
import NumericWorkbench.Roots.Scan
/-! The tables of the reports. Numbers have twelve digits in all of them. -/
namespace NumericWorkbench
namespace Report

def evaluationTable (values : List (Float × Float)) : String :=
  Table.draw (["x","f(x)"]::values.map fun (x,y) => [Number.short x,Number.short y])

def matrixTable {m n : Nat} (a : Mat Float m n) : String :=
  Table.draw (a.toList.map fun row => row.toList.map Number.short)

/-- `[A b]` under a header. A right-hand side that is too short leaves cells blank, and one that
is too long is cut. -/
def augmentedTable {m n : Nat} (a : Mat Float m n) (b : List Float) : String :=
  let header := (List.range n).map (fun j => s!"x{j+1}") ++ ["b"]
  let rows := a.toList.zipIdx.map fun (row,i) =>
    row.toList.map Number.short ++ [(b[i]?.map Number.short).getD ""]
  Table.draw (header::rows)

/-- The numbered components of a vector. -/
def vectorTable (name : String) (x : List Float) : String :=
  Table.draw (["i",name]::x.zipIdx.map fun (v,i) => [s!"{name}{i+1}",Number.short v])

def traceTable (trace : List (Roots.Step Float)) : String :=
  Table.draw (["n","a","b","m = (a+b)/2","f(m)"]::trace.map fun t =>
    [toString t.index,Number.short t.left,Number.short t.right,Number.short t.midpoint,
      Number.short t.value])

def origin : Roots.Origin Float → String
  | .exact => "grid point"
  | .cell left right iterations converged =>
    s!"bisection on [{Number.short left}, {Number.short right}], {iterations} iterations" ++
      (if converged then "" else ", not converged")

def rootsTable (roots : List (Roots.Root Float)) : String :=
  Table.draw (["x","f(x)","step","method"]::roots.map fun r =>
    [Number.short r.x,Number.short r.value,Number.short r.step,origin r.origin])

end Report
end NumericWorkbench
