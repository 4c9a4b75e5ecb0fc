import Mathlib
import NumericWorkbench.Arithmetic
/-! Exact arithmetic: the numerical methods read over an ordered field such as the rationals, where
nothing is rounded, every number is finite and none is undefined. -/
namespace NumericWorkbench

-- a field has its own operations, and those of the instance below are meant to be the same
attribute [instance(50)] Arithmetic.toAdd Arithmetic.toSub Arithmetic.toMul Arithmetic.toDiv
  Arithmetic.toNeg Arithmetic.toLT Arithmetic.toLE Arithmetic.toBEq Arithmetic.toOfScientific

namespace Arithmetic
variable {K : Type} [Field K] [LinearOrder K] [FloorRing K]

instance exact : Arithmetic K where
  decLt := inferInstance
  decLe := inferInstance
  magnitude x := |x|
  ofNat n := n
  isFinite _ := true
  isNaN _ := false
  toCount x := min ⌊x⌋.toNat (2^64-1)
  precedes x y := x ≤ y

@[simp] theorem magnitude_exact (x : K) : magnitude x = |x| := rfl

@[simp] theorem isNaN_exact (x : K) : isNaN x = false := rfl

theorem zero_literal : (0.0 : K) = 0 := by norm_num

theorem one_literal : (1.0 : K) = 1 := by norm_num

theorem sum_exact (xs : List K) : sum xs = xs.sum := by
  rw [sum,List.sum_eq_foldl]
  norm_num

theorem sumOver_exact {ι : Type} (is : List ι) (f : ι → K) : sumOver is f = (is.map f).sum :=
  sum_exact _

theorem total_exact (xs : List K) : total xs = xs.sum := by
  cases xs with
  | nil => norm_num [total]
  | cons x xs => simp [total,List.sum_eq_foldl]

end Arithmetic
end NumericWorkbench
