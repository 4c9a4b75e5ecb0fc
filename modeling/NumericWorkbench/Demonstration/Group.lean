import NumericWorkbench.Demonstration.Numerical
import NumericWorkbench.Demonstration.Symbolic
import NumericWorkbench.Demonstration.Documents
/-! The groups of demonstrations. Within a group they are numbered from zero. -/
namespace NumericWorkbench
namespace Demonstration

inductive Group where
  | numerical | symbolic | tasks
deriving Repr,DecidableEq

namespace Group

def all : List Group := [numerical,symbolic,tasks]

def name : Group → String
  | numerical => "numerical"
  | symbolic => "symbolic"
  | tasks => "tasks"

def ofName? (text : String) : Option Group := all.find? fun group => group.name = text

def shown : Group → Nat → Shown
  | numerical => Demonstration.numerical
  | symbolic => Demonstration.symbolic
  | tasks => Demonstration.documents

end Group
end Demonstration
end NumericWorkbench
