import NumericWorkbench.Formula.Compiled
import NumericWorkbench.Task.Task
/-! Running tasks. A task that fails does not keep the others from running. Only a right-hand side
that cannot stand beside a singular matrix ends the whole run, since there is no way to say what
such a system is. -/
namespace NumericWorkbench
namespace Task

inductive RunError where
  | formula (error : Formula.Error)
  | roots (error : Roots.Error Float)
  | linear (error : Linear.Error Float)

def RunError.message : RunError → String
  | formula e => e.message
  | roots e => e.message
  | linear e => e.message

inductive Outcome where
  | evaluated (function : Formula) (values : List (Float × Float))
  | bisected (function : Formula) (result : Roots.Bisection Float)
  | scanned (function : Formula) (scan : Roots.Scan Float) (roots : List (Roots.Root Float))
  | solved (solution : Linear.Solution)

abbrev Result := Except RunError Outcome

def compiled (source : String) (run : Formula → Result) : Result :=
  match Formula.compile source with
  | .error e => .error (.formula e)
  | .ok f => run f

/-- A singular system is diagnosed, although the outcome does not depend on the diagnosis. -/
def solved (method : Linear.Method) (s : Linear.System) :
    Except Linear.HeightMismatch Result :=
  match Linear.solve method s with
  | .ok solution => .ok (.ok (.solved solution))
  | .error (.dimension misfit) => .ok (.error (.linear (.dimension misfit)))
  | .error (.singular stage pivot) => do
    let _ ← Linear.diagnose s.matrix s.rhs
    return .error (.linear (.singular stage pivot))

def run : Task → Except Linear.HeightMismatch Result
  | evaluate function points =>
    .ok (compiled function fun f => .ok (.evaluated f (points.map fun x => (x,f.eval x))))
  | bisection function a b settings =>
    .ok (compiled function fun f =>
      match Roots.bisect f.eval a b settings with
      | .error e => .error (.roots e)
      | .ok r => .ok (.bisected f r))
  | scan function c =>
    .ok (compiled function fun f =>
      match Roots.scanRoots f.eval c with
      | .error e => .error (.roots e)
      | .ok roots => .ok (.scanned f c roots))
  | linear method system => solved method system

def runAll (tasks : List Task) : Except Linear.HeightMismatch (List (Task × Result)) :=
  tasks.mapM fun t => do return (t,← t.run)

/-- What keeps the tasks of a document from being answered. -/
inductive Obstacle where
  | refused (error : Document.Error)
  | undiagnosable (mismatch : Linear.HeightMismatch)
deriving Repr,DecidableEq

def runParsed (tasks : Except Document.Error (List Task)) :
    Except Obstacle (List (Task × Result)) :=
  match tasks with
  | .error e => .error (.refused e)
  | .ok tasks =>
    match runAll tasks with
    | .error mismatch => .error (.undiagnosable mismatch)
    | .ok results => .ok results

/-- The tasks of a document with their results. -/
def runDocument (text : String) : Except Obstacle (List (Task × Result)) := runParsed (parse text)

def runFile (path : String) (content : File.Content) : Except Obstacle (List (Task × Result)) :=
  runParsed (parseFile path content)

def compiledRecords (source : String) (records : Formula → List Log.Record) : List Log.Record :=
  Formula.records source ++
    match Formula.compile source with
    | .error _ => []
    | .ok f => records f

def solvedRecords (method : Linear.Method) (s : Linear.System) : List Log.Record :=
  Linear.solveRecords method s ++
    match Linear.solve method s with
    | .error (.singular _ _) =>
      match Linear.diagnose s.matrix s.rhs with
      | .error _ => []
      | .ok solvability =>
        solvability.records ++ [⟨.warn,s!"singular system: {solvability.text}"⟩]
    | _ => []

def records (t : Task) : List Log.Record :=
  ⟨.info,s!"running {t.kind.name} task"⟩::
    match t with
    | evaluate function _ => Formula.records function
    | bisection function a b settings =>
      compiledRecords function fun f => Roots.bisectRecords f.source f.eval a b settings
    | scan function c => compiledRecords function fun f => Roots.scanRecords f.source f.eval c
    | linear method system => solvedRecords method system

/-- What running tasks tells, up to the one that ends the run. -/
def allRecords : List Task → List Log.Record
  | [] => []
  | t::ts =>
    t.records ++
      match t.run with
      | .error _ => []
      | .ok _ => allRecords ts

/-- What running a document tells: nothing if it is refused. -/
def documentRecords (text : String) : List Log.Record :=
  match parse text with
  | .error _ => []
  | .ok tasks => allRecords tasks

def fileRecords (path : String) (content : File.Content) : List Log.Record :=
  match parseFile path content with
  | .error _ => []
  | .ok tasks => ⟨.info,s!"{tasks.length} task(s) read from {path}"⟩::allRecords tasks

end Task
end NumericWorkbench
