import NumericWorkbench.Proofs.Linear.Cycles
import NumericWorkbench.Proofs.Linear.Factorization
/-! The determinant from the factors is the determinant of the matrix. -/
namespace NumericWorkbench
namespace Linear
open Arithmetic
variable {n : Nat} {K : Type} [Field K] [LinearOrder K] [FloorRing K]

theorem sign_exact {order : Vector (Fin n) n} (injective : Function.Injective order.get) :
    (if isOdd order then -1.0 else 1.0 : K) = (Equiv.Perm.sign (toPerm injective) : ℤ) := by
  rw [sign_toPerm_eq_isOdd injective,one_literal]
  split <;> simp

theorem product_exact (xs : List K) : product xs = xs.prod := by
  rw [product,one_literal,List.prod_eq_foldl]

theorem toMatrix_permutation {f : Factors K n} (injective : Function.Injective f.order.get) :
    f.permutation.toMatrix = (toPerm injective).permMatrix K := by
  ext i j
  rw [Mat.toMatrix_apply,f.permutation_entry,Equiv.Perm.permMatrix,PEquiv.toMatrix_apply]
  simp [toPerm,eq_comm]

theorem Factors.IsFactorization.determinant_eq {f : Factors K n} {a : Mat K n n}
    (h : f.IsFactorization a) : f.determinant = a.toMatrix.det := by
  have hinjective := h.order.injective
  have hupper : f.upper.toMatrix.det = Arithmetic.product f.upper.diagonal := by
    have htriangular : f.upper.toMatrix.IsUpperTriangular := fun i j hij => h.upper_below i j hij
    rw [Matrix.det_of_isUpperTriangular htriangular,product_exact,Mat.diagonal,Fin.prod_univ_def]
    rfl
  have hrows := h.det_permutation_mul
  rw [toMatrix_permutation hinjective,Matrix.det_permutation,hupper] at hrows
  rw [Factors.determinant,sign_exact hinjective,← hrows,← mul_assoc,← Int.cast_mul,
    Int.units_coe_mul_self,Int.cast_one,one_mul]

/-- The determinant of the factors is that of the matrix. Its sign comes from walks along the order
of the rows. Each walk ends before the bound on its steps counts. Whatever the order is, each index
lies on exactly one of the walks, and those of even length change the sign, which makes it the sign
of the number of inversions. -/
theorem determinant_correct [IsStrictOrderedRing K] :
    (∀ (n : Nat) (a : Mat K n n) (f : Factors K n), factorize a = .ok f →
      f.determinant = a.toMatrix.det) ∧
    ∀ (n : Nat) (order : Vector (Fin n) n), Function.Injective order.get →
      (∀ i visited, ∃ c, Walk order i visited c ∧
        walkCycle order n i visited = (c.length,mark c visited)) ∧
      ∃ cycles, Walks order (List.finRange n) (Vector.replicate n false) cycles ∧
        cycles.flatten.Perm (List.finRange n) ∧
        isOdd order = decide (Odd (cycles.countP fun c => c.length % 2 = 0)) ∧
        (if isOdd order then -1.0 else 1.0 : K) = (-1)^inversions order := by
  constructor
  · intro n a f hf
    exact (isFactorization_of_factorize (positive_of_factorize hf) hf).determinant_eq
  · intro n order injective
    obtain ⟨cycles,hcycles⟩ := exists_walks order (List.finRange n) (Vector.replicate n false)
    refine ⟨fun i visited => ?_,cycles,hcycles,hcycles.flatten_perm,?_,?_⟩
    · obtain ⟨c,hc⟩ := exists_walk order i visited
      exact ⟨c,hc,hc.walkCycle_eq hc.length_le⟩
    · rw [isOdd_eq,foldl_countCycle hcycles,Bool.false_xor]
    · rw [sign_exact injective,sign_toPerm_eq_inversions injective]
      simp

/-- An exchange of the first two rows, and an order with a cycle of length three and one of length
two. -/
theorem determinant_correct_odd :
    (factorize (#v[#v[0,2,1],#v[4,1,0],#v[0,0,3]] : Mat ℚ 3 3) =
        .ok ⟨#v[1,0,2],#v[#v[1,0,0],#v[0,1,0],#v[0,0,1]],#v[#v[4,1,0],#v[0,2,1],#v[0,0,3]]⟩ ∧
      Matrix.det (Mat.toMatrix (#v[#v[0,2,1],#v[4,1,0],#v[0,0,3]] : Mat ℚ 3 3)) = -24) ∧
    Function.Injective (#v[1,2,0,4,3] : Vector (Fin 5) 5).get ∧
      (if isOdd (#v[1,2,0,4,3] : Vector (Fin 5) 5) then -1.0 else 1.0 : ℚ) = (-1)^3 := by
  have hfactors : factorize (#v[#v[0,2,1],#v[4,1,0],#v[0,0,3]] : Mat ℚ 3 3) =
      .ok ⟨#v[1,0,2],#v[#v[1,0,0],#v[0,1,0],#v[0,0,1]],#v[#v[4,1,0],#v[0,2,1],#v[0,0,3]]⟩ := by
    decide +kernel
  have hinjective : Function.Injective (#v[1,2,0,4,3] : Vector (Fin 5) 5).get := by decide
  have hinversions : inversions (#v[1,2,0,4,3] : Vector (Fin 5) 5) = 3 := by decide +kernel
  refine ⟨⟨hfactors,?_⟩,hinjective,?_⟩
  · rw [← determinant_correct.1 3 _ _ hfactors]
    decide +kernel
  · obtain ⟨-,cycles,-,-,-,hsign⟩ := (determinant_correct (K := ℚ)).2 5 _ hinjective
    rw [hsign,hinversions]

end Linear
end NumericWorkbench
