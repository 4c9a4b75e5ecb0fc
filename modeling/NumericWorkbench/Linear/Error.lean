import NumericWorkbench.Number.Text
/-! Why a linear system is refused. -/
namespace NumericWorkbench
namespace Linear

inductive Misfit where
  | empty
  | notSquare (rows columns : Nat)
  | rightSide (entries order : Nat)
  | factors (order : Nat) (p l : Nat × Nat)
deriving Repr,DecidableEq

def Misfit.message : Misfit → String
  | empty => "matrix is empty"
  | notSquare rows columns => s!"matrix must be square, got {rows}x{columns}"
  | rightSide count order => s!"right-hand side has {count} entries, matrix is {order}x{order}"
  | factors order (pr,pc) (lr,lc) =>
    s!"factors must all be {order}x{order}, got P ({pr}, {pc}), L ({lr}, {lc})"

inductive Error (α : Type) where
  | dimension (misfit : Misfit)
  /-- No usable pivot at a stage, counted from zero. The pivot is the best candidate there. -/
  | singular (stage : Nat) (pivot : α)
deriving DecidableEq

def Error.message : Error Float → String
  | dimension misfit => s!"Dimension mismatch: {misfit.message}"
  | singular stage pivot =>
    s!"Matrix is singular or nearly singular: pivot {Number.scientific pivot} " ++
      s!"at stage {stage+1}"

/-- A matrix with as many rows as columns, and at least one. -/
def checkSquare (m n : Nat) : Except Misfit (PLift (m = n ∧ 0 < n)) :=
  if h : m = 0 ∨ n = 0 then .error .empty
  else if e : m = n then .ok ⟨e,by omega⟩
  else .error (.notSquare m n)

def checkSystem (m n p : Nat) : Except Misfit (PLift (m = n ∧ p = n ∧ 0 < n)) := do
  let ⟨square,positive⟩ ← checkSquare m n
  if e : p = n then return ⟨square,e,positive⟩
  else throw (.rightSide p n)

end Linear
end NumericWorkbench
