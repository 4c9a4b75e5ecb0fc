import NumericWorkbench.Linear.Mat
import NumericWorkbench.Proofs.Exact
/-! Stored matrices and vectors entry by entry, and over exact arithmetic as matrices of linear
algebra. -/
namespace NumericWorkbench

namespace Vec
variable {α : Type} {n : Nat}

theorem ext {x y : Vector α n} (h : ∀ i, x.get i = y.get i) : x = y := by
  apply Vector.ext
  intro i hi
  exact h ⟨i,hi⟩

@[simp] theorem get_replace (x : Vector α n) (i j : Fin n) (v : α) :
    (replace x i v).get j = if j = i then v else x.get j := by
  simp [replace]

@[simp] theorem get_exchange (x : Vector α n) (i j k : Fin n) :
    (exchange x i j).get k = x.get (Equiv.swap i j k) := by
  simp only [exchange,Vector.get_ofFn,Equiv.swap_apply_def]
  split_ifs <;> rfl

theorem exchange_self (x : Vector α n) (i : Fin n) : exchange x i i = x := by
  apply ext
  simp

end Vec

namespace Mat
variable {α : Type} {m n k : Nat}

theorem ext {a b : Mat α m n} (h : ∀ i j, a.entry i j = b.entry i j) : a = b :=
  Vec.ext fun i => Vec.ext (h i)

@[simp] theorem entry_exchange (a : Mat α m n) (i j k : Fin m) (l : Fin n) :
    Mat.entry (Vec.exchange a i j) k l = a.entry (Equiv.swap i j k) l := by
  simp [entry]

theorem entry_vector_ofFn (f : Fin m → Vector α n) (i : Fin m) (j : Fin n) :
    Mat.entry (Vector.ofFn f) i j = (f i).get j := by
  simp [entry]

def toMatrix (a : Mat α m n) : Matrix (Fin m) (Fin n) α := Matrix.of a.entry

@[simp] theorem toMatrix_apply (a : Mat α m n) (i : Fin m) (j : Fin n) :
    a.toMatrix i j = a.entry i j := rfl

variable {K : Type} [Field K] [LinearOrder K] [FloorRing K]

theorem toMatrix_mul (a : Mat K m k) (b : Mat K k n) :
    (a.mul b).toMatrix = a.toMatrix * b.toMatrix := by
  ext i j
  simp [mul,Arithmetic.total_exact,Matrix.mul_apply,Fin.sum_univ_def]

theorem get_mulVec (a : Mat K m n) (x : Vector K n) : (a.mulVec x).get = a.toMatrix.mulVec x.get := by
  ext i
  simp [mulVec,Arithmetic.total_exact,Matrix.mulVec,dotProduct,Fin.sum_univ_def]

theorem mulVec_eq_iff (a : Mat K m n) (x : Vector K n) (b : Vector K m) :
    a.mulVec x = b ↔ a.toMatrix.mulVec x.get = b.get := by
  rw [← get_mulVec]
  exact ⟨fun h => h ▸ rfl,fun h => Vec.ext (congrFun h)⟩

theorem mul_mulVec (a : Mat K m k) (b : Mat K k n) (x : Vector K n) :
    (a.mul b).mulVec x = a.mulVec (b.mulVec x) := by
  rw [mulVec_eq_iff,toMatrix_mul,get_mulVec,get_mulVec,Matrix.mulVec_mulVec]

end Mat
end NumericWorkbench
