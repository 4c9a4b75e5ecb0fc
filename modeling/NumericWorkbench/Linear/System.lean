import NumericWorkbench.Linear.Elimination
import NumericWorkbench.Linear.Factorization
import NumericWorkbench.Linear.Diagnosis
/-! Linear systems as they are given, of any sizes, and their solution by one or both methods. -/
namespace NumericWorkbench
namespace Linear

structure System where
  m : Nat
  n : Nat
  p : Nat
  matrix : Mat Float m n
  rhs : Vector Float p

inductive Method where
  | gauss | lu | both
deriving Repr,DecidableEq

namespace Method

def all : List Method := [gauss,lu,both]

def name : Method → String
  | gauss => "gauss"
  | lu => "lu"
  | both => "both"

/-- The method where none is named. -/
def standard : Method := both

/-- A method by its name, in any case. -/
def ofName? (text : String) : Option Method :=
  all.find? fun method => method.name.toList = text.toList.map Char.toLower

def eliminates (method : Method) : Bool := method != lu

def factorizes (method : Method) : Bool := method != gauss

end Method

/-- The solutions of a system with all that led to them. -/
structure Solution where
  method : Method
  system : System
  gauss : Option (Vector Float system.n × List (Stage Float system.n))
  lu : Option (Factors Float system.n × Vector Float system.n)
  conditionNumber : Float

/-- Solve a system by a method. Of two methods elimination comes first, and the first error ends
the work. -/
def solve (method : Method) (s : System) : Except (Error Float) Solution := do
  let gauss ←
    if method.eliminates then do pure (some (← solveWithStages s.matrix s.rhs)) else pure none
  let lu ←
    if method.factorizes then do
      let factors ← factorize s.matrix
      pure (some (factors,← factors.solve s.rhs))
    else pure none
  return ⟨method,s,gauss,lu,conditionNumber s.matrix⟩

def solveRecords (method : Method) (s : System) : List Log.Record :=
  let elimination := if method.eliminates then eliminationRecords s.matrix s.rhs else []
  let eliminated := !method.eliminates || (solveWithStages s.matrix s.rhs).isOk
  let factorization :=
    if method.factorizes && eliminated then
      factorizationRecords s.matrix ++
        match factorize s.matrix with
        | .error _ => []
        | .ok factors =>
          match factors.solve s.rhs with
          | .error e => e.records
          | .ok _ => []
    else []
  elimination ++ factorization

end Linear
end NumericWorkbench
