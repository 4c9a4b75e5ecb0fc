import NumericWorkbench.Demonstration.Shown
import NumericWorkbench.Report.Outcome
/-! Demonstrations of task documents. -/
namespace NumericWorkbench
namespace Demonstration

def everyKind : String := "\n".intercalate [
  "","// values of a function","evaluate","function: x^2 - 4","points: -2; 0; 1,5; 3","",
  "// root of a cubic inside [0, 1]","bisection","function: x^3 - 9x + 4","interval: 0; 1",
  "tolerance: 1e-8","","// all roots of sin on [-10, 10]","scan","function: sin(x)",
  "interval: -10; 10","steps: 1; 0,1","","# a 3x3 system that needs row swaps","linear",
  "method: both","matrix: 0; 2; 1 | 1; 1; 1 | 2; 1; 0","rhs: 5; 4; 4",""]

/-- Two tasks that fail and one that does not. -/
def withMistakes : String :=
  "evaluate\nfunction: x +* 1\npoints: 1\nbisection\nfunction: x^2+1\ninterval: -1; 1\n" ++
    "evaluate\nfunction: 2x\npoints: 1; 2"

def sections (document : String) : Shown :=
  ⟨match Document.parse document with
    | .error e => [e.message]
    | .ok sections => sections.flatMap fun s =>
      s.title::s.entries.map fun e => s!"    {e.key} = {e.value}",
    []⟩

def reports (document : String) : Shown :=
  ⟨match Task.runDocument document with
    | .error (.refused e) => [e.message]
    | .error (.undiagnosable _) => []
    | .ok results => results.map fun (t,r) =>
      match r with
      | .ok o => Report.outcome o
      | .error e => s!"{t.kind.name} task failed: {e.message}",
    Task.documentRecords document⟩

def documents : Nat → Shown
  | 0 => sections everyKind
  | 1 => reports everyKind
  | 2 => reports withMistakes
  | n => unknown n

end Demonstration
end NumericWorkbench
