import NumericWorkbench.Number.Text
/-! Why a search for roots is refused. -/
namespace NumericWorkbench
namespace Roots

/-- A setting with which no search can begin. -/
inductive BadSetting (α : Type) where
  | tolerance (value : α)
  | maxIterations
  | infiniteEnds (a b : α)
  | equalEnds (a b : α)
  | scanInterval (start stop : α)
  | noSteps
  | step (value : α)
  | tooManyCells (step start stop : α)
  | exactThreshold (value : α)
deriving DecidableEq

inductive Error (α : Type) where
  /-- The function has no finite value at one of the ends. -/
  | undefinedAtEnds (a fa b fb : α)
  /-- The values at the ends do not have strictly opposite signs. -/
  | sameSign (fa fb : α)
  | badSetting (setting : BadSetting α)
deriving DecidableEq

def interval (a b : Float) : String := s!"[{Number.plain a}, {Number.plain b}]"

def BadSetting.message : BadSetting Float → String
  | tolerance value => s!"tolerance must be a positive number, got {Number.plain value}"
  | maxIterations => "max_iterations must be at least 1"
  | infiniteEnds a b => s!"interval endpoints must be finite numbers, got {interval a b}"
  | equalEnds a b => s!"interval endpoints must differ, got {interval a b}"
  | scanInterval start stop =>
    s!"scan interval must be finite with start < end, got {interval start stop}"
  | noSteps => "at least one grid step is required"
  | step value => s!"grid step must be a positive number, got {Number.plain value}"
  | tooManyCells value start stop =>
    s!"grid step {Number.plain value} gives more than 1e7 cells on {interval start stop}"
  | exactThreshold value =>
    s!"exact root threshold must be a non-negative number, got {Number.plain value}"

def Error.message : Error Float → String
  | undefinedAtEnds a fa b fb =>
    "Function is undefined at the interval endpoints: " ++
      s!"f({Number.plain a}) = {Number.plain fa}, f({Number.plain b}) = {Number.plain fb}"
  | sameSign fa fb =>
    s!"Invalid interval for bisection method: f(a) = {Number.plain fa} and " ++
      s!"f(b) = {Number.plain fb} must have opposite signs"
  | badSetting setting => s!"Invalid input: {setting.message}"

end Roots
end NumericWorkbench
