import NumericWorkbench.Formula.Compiled
/-! How deep a recursion along a tree goes. A function of trees calls itself for the parts of a tree,
and as many of its calls are open at one time as there are nodes on the longest path of the tree. -/
namespace NumericWorkbench
namespace Formula

/-- A function of trees by what it is at a leaf, and how it is put together from the parts. -/
structure Recursion (α : Type) where
  var : α
  const : Float → α
  binary : Operation → α → α → α
  apply : Elementary → α → α

def evaluation (x : Float) : Recursion Float where
  var := x
  const value := value
  binary op left right := op.apply left right
  apply f argument := f.apply argument

def printing (name : List Char) : Recursion (List Char) where
  var := name
  const value := Number.plainChars value
  binary op left right := '('::(left ++ ' '::op.symbol :: ' '::(right ++ [')']))
  apply f argument := f.name.toList ++ '('::(argument ++ [')'])

def Expr.height : Expr → Nat
  | .var => 1
  | .const _ => 1
  | .binary _ left right => 1+max left.height right.height
  | .apply _ argument => 1+argument.height

theorem Expr.height_pos (e : Expr) : 0 < e.height := by
  cases e <;> simp only [height] <;> omega

theorem Expr.height_le_nodeCount (e : Expr) : e.height ≤ e.nodeCount := by
  induction e with
  | var | const value => exact Nat.le_refl 1
  | binary op left right ihl ihr =>
    simp only [height,nodeCount]
    omega
  | apply f argument ih =>
    simp only [height,nodeCount]
    omega

namespace Recursion
variable {α : Type}

def run (r : Recursion α) : Expr → α
  | .var => r.var
  | .const value => r.const value
  | .binary op left right => r.binary op (r.run left) (r.run right)
  | .apply f argument => r.apply f (r.run argument)

/-- The same with room for `n` calls that are open at one time. Nothing comes out if one more is
needed. -/
def runWithin (r : Recursion α) : Nat → Expr → Option α
  | 0,_ => none
  | _+1,.var => some r.var
  | _+1,.const value => some (r.const value)
  | n+1,.binary op left right => do
    let a ← r.runWithin n left
    let b ← r.runWithin n right
    return r.binary op a b
  | n+1,.apply f argument => do
    let a ← r.runWithin n argument
    return r.apply f a

theorem run_evaluation (x : Float) (e : Expr) : (evaluation x).run e = e.eval x := by
  induction e with
  | var | const value => rfl
  | binary op left right ihl ihr => rw [run,ihl,ihr]; rfl
  | apply f argument ih => rw [run,ih]; rfl

theorem run_printing (name : List Char) (e : Expr) : (printing name).run e = e.chars name := by
  induction e with
  | var | const value => rfl
  | binary op left right ihl ihr => rw [run,ihl,ihr]; rfl
  | apply f argument ih => rw [run,ih]; rfl

/-- A recursion needs room for as many calls as the tree is high, -/
theorem runWithin_of_le (r : Recursion α) {n : Nat} {e : Expr} (h : e.height ≤ n) :
    r.runWithin n e = some (r.run e) := by
  fun_induction runWithin r n e with
  | case1 e => exact absurd h (Nat.not_le.mpr e.height_pos)
  | case2 | case3 => rfl
  | case4 n op left right ihl ihr =>
    rw [Expr.height] at h
    rw [ihl (by omega),ihr (by omega)]
    rfl
  | case5 n f argument ih =>
    rw [Expr.height] at h
    rw [ih (by omega)]
    rfl

/-- and it does not get by with less. -/
theorem runWithin_of_lt (r : Recursion α) {n : Nat} {e : Expr} (h : n < e.height) :
    r.runWithin n e = none := by
  fun_induction runWithin r n e with
  | case1 => rfl
  | case2 | case3 => simp only [Expr.height] at h; omega
  | case4 n op left right ihl ihr =>
    rw [Expr.height] at h
    obtain hl | hr : n < left.height ∨ n < right.height := by omega
    · rw [ihl hl]
      rfl
    · rw [ihr hr]
      exact Option.bind_fun_none _
  | case5 n f argument ih =>
    rw [Expr.height] at h
    rw [ih (by omega)]
    rfl

end Recursion
end Formula
end NumericWorkbench
