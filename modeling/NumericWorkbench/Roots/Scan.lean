import NumericWorkbench.Roots.Bisection
/-! All roots on a wide interval. The function is sampled on a grid: a point with a value close
to zero is a root by itself, and a cell whose ends have opposite signs is bisected. The grid steps
are tried in turn until one of them finds a root. -/
namespace NumericWorkbench
namespace Roots
open Arithmetic
variable {α : Type} [Arithmetic α]

structure Scan (α : Type) where
  start : α
  stop : α
  steps : List α
  tolerance : α
  maxIterations : Nat
  /-- A grid point is a root if the magnitude of the value there is below this. -/
  exactThreshold : α
deriving DecidableEq

namespace Scan

def standard : Scan α := ⟨-100.0,100.0,[1.0,0.1],1e-6,1000,1e-12⟩

def settings (c : Scan α) : Settings α := ⟨c.tolerance,c.maxIterations⟩

def validate (c : Scan α) : Except (Error α) Unit := do
  if !isFinite c.start || !isFinite c.stop || c.stop ≤ c.start then
    throw (.badSetting (.scanInterval c.start c.stop))
  if c.steps.isEmpty then throw (.badSetting .noSteps)
  if let some step := c.steps.find? fun step => !isFinite step || step ≤ 0.0 then
    throw (.badSetting (.step step))
  if let some step := c.steps.find? fun step => 1e7 < (c.stop-c.start)/step then
    throw (.badSetting (.tooManyCells step c.start c.stop))
  if !isFinite c.exactThreshold || c.exactThreshold < 0.0 then
    throw (.badSetting (.exactThreshold c.exactThreshold))
  c.settings.validate

/-- The points from the start on in multiples of the step. A quotient just below a whole number
counts as that number. -/
def grid (c : Scan α) (step : α) : List α :=
  let cells := toCount ((c.stop-c.start)/step+1e-9)
  (List.range (cells+1)).map fun i => c.start+ofNat i*step

def samples (c : Scan α) (f : α → α) (step : α) : List (α × α) :=
  (c.grid step).map fun x => (x,f x)

def isExact (c : Scan α) (value : α) : Bool := magnitude value < c.exactThreshold

end Scan

inductive Origin (α : Type) where
  /-- A grid point. -/
  | exact
  /-- A search in the cell between `left` and `right`. -/
  | cell (left right : α) (iterations : Nat) (converged : Bool)
deriving DecidableEq

structure Root (α : Type) where
  x : α
  value : α
  step : α
  origin : Origin α
deriving DecidableEq

/-- The roots that a grid point contributes: itself, and the one in the cell to its right. A cell
with an exact root at one end is left alone. -/
def rootsFrom (f : α → α) (c : Scan α) (step : α) :
    (α × α) × Option (α × α) → Except (Error α) (List (Root α))
  | ((x,v),next) => do
    let here := if c.isExact v then [⟨x,v,step,.exact⟩] else []
    match next with
    | none => return here
    | some (y,w) =>
      if !isFinite v || !isFinite w || c.isExact v || c.isExact w || 0.0 ≤ v*w then return here
      let r ← bisect f x y c.settings
      return here ++ [⟨r.root,r.residual,step,.cell x y r.iterations r.converged⟩]

/-- The roots that one grid step finds, in the order of the grid. -/
def rootsAt (f : α → α) (c : Scan α) (step : α) : Except (Error α) (List (Root α)) := do
  let samples := c.samples f step
  let found ← (samples.zip (samples.tail.map some ++ [none])).mapM (rootsFrom f c step)
  return found.flatten

def firstFound (f : α → α) (c : Scan α) : List α → Except (Error α) (List (Root α))
  | [] => .ok []
  | step::steps => do
    let roots ← rootsAt f c step
    if roots.isEmpty then firstFound f c steps
    else return roots.mergeSort fun r s => precedes r.x s.x

/-- All roots that the first successful step finds, in ascending order. -/
def scanRoots (f : α → α) (c : Scan α) : Except (Error α) (List (Root α)) := do
  c.validate
  firstFound f c c.steps

/-- The neighbouring grid points between which a finite function changes its sign. -/
def signChanges (f : α → α) (c : Scan α) (step : α) : List (α × α) :=
  let samples := c.samples f step
  ((samples.zip samples.tail).filter fun ((_,v),(_,w)) =>
    isFinite v && isFinite w && v*w < 0.0).map fun ((x,_),(y,_)) => (x,y)

def rootRecords (name : String) (f : Float → Float) (c : Scan Float) (r : Root Float) :
    List Log.Record :=
  match r.origin with
  | .exact =>
    [⟨.debug,s!"exact root at grid point {Number.plain r.x}: f = {Number.plain r.value}"⟩]
  | .cell left right _ _ => bisectRecords name f left right c.settings

def stepRecords (name : String) (f : Float → Float) (c : Scan Float) :
    List Float → List Log.Record
  | [] => []
  | step::steps =>
    match rootsAt f c step with
    | .error _ => []
    | .ok roots =>
      let summary : Log.Record :=
        ⟨.info,s!"root scan of {name} on {interval c.start c.stop} " ++
          s!"with step {Number.plain step}: {roots.length} root(s)"⟩
      roots.flatMap (rootRecords name f c) ++
        summary::(if roots.isEmpty then stepRecords name f c steps else [])

def scanRecords (name : String) (f : Float → Float) (c : Scan Float) : List Log.Record :=
  match c.validate with
  | .error _ => []
  | .ok _ => stepRecords name f c c.steps

end Roots
end NumericWorkbench
