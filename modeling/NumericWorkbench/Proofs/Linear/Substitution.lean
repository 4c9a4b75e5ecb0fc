import NumericWorkbench.Proofs.Except
import NumericWorkbench.Proofs.Linear.Pivot
/-! The substitutions solve triangular systems. Each of them writes every unknown once, from
unknowns that are not written again. -/
namespace NumericWorkbench
namespace Linear
open Arithmetic
variable {n : Nat}

theorem checkSquare_self (positive : 0 < n) : checkSquare n n = .ok ⟨rfl,positive⟩ := by
  rw [checkSquare,dif_neg (by omega),dif_pos rfl]

theorem checkSystem_self (positive : 0 < n) : checkSystem n n n = .ok ⟨rfl,rfl,positive⟩ := by
  rw [checkSystem,checkSquare_self positive,ok_bind]
  exact dif_pos rfl

/-- If no entry is computed from itself or from one that is written later, then each entry is
what is computed for it from the final vector. -/
theorem get_foldr_replace {α : Type} (f : Fin n → Vector α n → α) (is : List (Fin n)) (x : Vector α n)
    (own : ∀ i y v, f i (Vec.replace y i v) = f i y)
    (apart : is.Pairwise fun i j => i ≠ j ∧ ∀ y v, f j (Vec.replace y i v) = f j y)
    (i : Fin n) (hi : i ∈ is) :
    (is.foldr (fun i y => Vec.replace y i (f i y)) x).get i =
      f i (is.foldr (fun i y => Vec.replace y i (f i y)) x) := by
  induction is with
  | nil => simp at hi
  | cons k is ih =>
    obtain ⟨hk,his⟩ := List.pairwise_cons.mp apart
    rw [List.foldr_cons,Vec.get_replace]
    rcases List.mem_cons.mp hi with rfl | hi
    · rw [if_pos rfl,own]
    · rw [if_neg (hk i hi).1.symm,(hk i hi).2,ih his hi]

section Triangles
variable {R : Type} [CommRing R]

/-- The matrix whose system forward substitution solves: ones stand on the diagonal, and what is
stored there or above is not looked at. -/
def unitLower (l : Mat R n n) : Matrix (Fin n) (Fin n) R :=
  Matrix.of fun i j => if j < i then l.entry i j else if j = i then 1 else 0

/-- The matrix whose system back substitution solves: what is stored below the diagonal is not
looked at. -/
def upperPart (u : Mat R n n) : Matrix (Fin n) (Fin n) R :=
  Matrix.of fun i j => if i ≤ j then u.entry i j else 0

theorem unitLower_eq (l : Mat R n n) (diagonal : ∀ i, l.entry i i = 1)
    (above : ∀ i j, i < j → l.entry i j = 0) : unitLower l = l.toMatrix := by
  ext i j
  rcases lt_trichotomy j i with h | rfl | h
  · simp [unitLower,h]
  · simp [unitLower,diagonal]
  · simp [unitLower,above i j h,h.not_gt,h.ne']

theorem upperPart_eq (u : Mat R n n) (below : ∀ i j, j < i → u.entry i j = 0) :
    upperPart u = u.toMatrix := by
  ext i j
  by_cases h : i ≤ j
  · simp [upperPart,h]
  · simp [upperPart,h,below i j (not_le.mp h)]

theorem unitLower_mulVec (l : Mat R n n) (y : Fin n → R) (i : Fin n) :
    (unitLower l).mulVec y i = y i+∑ j ∈ Finset.Iio i, l.entry i j*y j := by
  have hterm (j : Fin n) : unitLower l i j*y j =
      (if j = i then y j else 0)+if j < i then l.entry i j*y j else 0 := by
    rcases lt_trichotomy j i with h | rfl | h
    · simp [unitLower,h,h.ne]
    · simp [unitLower]
    · simp [unitLower,h.ne',h.not_gt]
  simp only [Matrix.mulVec,dotProduct,hterm,Finset.sum_add_distrib,Finset.sum_ite_eq',
    Finset.mem_univ,if_true,← Finset.sum_filter,Finset.filter_gt_eq_Iio]

theorem upperPart_mulVec (u : Mat R n n) (x : Fin n → R) (i : Fin n) :
    (upperPart u).mulVec x i = u.entry i i*x i+∑ j ∈ Finset.Ioi i, u.entry i j*x j := by
  have hterm (j : Fin n) : upperPart u i j*x j =
      (if j = i then u.entry i j*x j else 0)+if i < j then u.entry i j*x j else 0 := by
    rcases lt_trichotomy j i with h | rfl | h
    · simp [upperPart,h.ne,h.not_gt,h.not_ge]
    · simp [upperPart]
    · simp [upperPart,h,h.ne',h.le]
  simp only [Matrix.mulVec,dotProduct,hterm,Finset.sum_add_distrib,Finset.sum_ite_eq',
    Finset.mem_univ,if_true,← Finset.sum_filter,Finset.filter_lt_eq_Ioi]

end Triangles

section AnyArithmetic
variable {α : Type} [Arithmetic α]

theorem sumOver_congr {ι : Type} {is : List ι} {f g : ι → α} (h : ∀ i ∈ is, f i = g i) :
    sumOver is f = sumOver is g := by
  rw [sumOver,sumOver,List.map_congr_left h]

theorem backStep_replace (u : Mat α n n) (b x : Vector α n) {i j : Fin n} (h : j ≤ i) (v : α) :
    backStep u b i (Vec.replace x j v) = backStep u b i x := by
  have hs : sumOver (after i) (fun t => u.entry i t*(Vec.replace x j v).get t) =
      sumOver (after i) (fun t => u.entry i t*x.get t) := by
    apply sumOver_congr
    intro t ht
    rw [Vec.get_replace,if_neg (h.trans_lt (mem_after.mp ht)).ne']
  simp only [backStep,hs]

theorem get_backSubstitute (u : Mat α n n) (b : Vector α n) (i : Fin n) :
    (backSubstitute u b).get i = backStep u b i (backSubstitute u b) := by
  apply get_foldr_replace (backStep u b)
  · exact fun i y v => backStep_replace u b y le_rfl v
  · exact (List.pairwise_lt_finRange n).imp fun hij =>
      ⟨hij.ne,fun y v => backStep_replace u b y hij.le v⟩
  · exact List.mem_finRange i

theorem foldrM_backStep {u : Mat α n n} {is : List (Fin n)}
    (h : ∀ i ∈ is, isUsable (u.entry i i) = true) (b x : Vector α n) :
    is.foldrM (fun i x =>
      if isUsable (u.entry i i) then .ok (Vec.replace x i (backStep u b i x))
      else .error (.singular i (u.entry i i))) x =
    (.ok (is.foldr (fun i x => Vec.replace x i (backStep u b i x)) x) : Except (Error α) _) := by
  induction is with
  | nil => rfl
  | cons i is ih =>
    obtain ⟨hi,his⟩ := List.forall_mem_cons.mp h
    rw [List.foldrM_cons,ih his,ok_bind,if_pos hi,List.foldr_cons]

theorem backSubstituteChecked_eq (u : Mat α n n) (b : Vector α n)
    (h : ∀ i, isUsable (u.entry i i) = true) :
    backSubstituteChecked u b = .ok (backSubstitute u b) :=
  foldrM_backStep (fun i _ => h i) b zeros

theorem backSubstituteChecked_error {u : Mat α n n} {i : Fin n}
    (hi : isUsable (u.entry i i) = false) (later : ∀ j, i < j → isUsable (u.entry j j) = true)
    (b : Vector α n) : backSubstituteChecked u b = .error (.singular i (u.entry i i)) := by
  have hsplit : List.finRange n = (List.finRange n).take i ++ i::(List.finRange n).drop (i+1) := by
    rw [← drop_finRange,List.take_append_drop]
  have hafter : ∀ j ∈ (List.finRange n).drop (i+1), isUsable (u.entry j j) = true := by
    intro j hj
    have hlt := (List.pairwise_lt_finRange n)
    rw [hsplit,List.pairwise_append,List.pairwise_cons] at hlt
    exact later j (hlt.2.1.1 j hj)
  rw [backSubstituteChecked,hsplit,List.foldrM_append,List.foldrM_cons,foldrM_backStep hafter,
    ok_bind,if_neg (by simp [hi]),error_bind]

def forwardStep (l : Mat α n n) (b : Vector α n) (i : Fin n) (y : Vector α n) : α :=
  b.get i-sumOver (before i) fun j => l.entry i j*y.get j

theorem forwardStep_replace (l : Mat α n n) (b y : Vector α n) {i j : Fin n} (h : i ≤ j) (v : α) :
    forwardStep l b i (Vec.replace y j v) = forwardStep l b i y := by
  have hs : sumOver (before i) (fun t => l.entry i t*(Vec.replace y j v).get t) =
      sumOver (before i) (fun t => l.entry i t*y.get t) := by
    apply sumOver_congr
    intro t ht
    rw [Vec.get_replace,if_neg ((mem_before.mp ht).trans_le h).ne]
  simp only [forwardStep,hs]

theorem get_forwardSubstitute (l : Mat α n n) (b : Vector α n) (i : Fin n) :
    (forwardSubstitute l b).get i = forwardStep l b i (forwardSubstitute l b) := by
  have he : forwardSubstitute l b = (List.finRange n).reverse.foldr
      (fun i y => Vec.replace y i (forwardStep l b i y)) zeros := List.foldl_eq_foldr_reverse
  rw [he]
  apply get_foldr_replace (forwardStep l b)
  · exact fun i y v => forwardStep_replace l b y le_rfl v
  · exact List.pairwise_reverse.mpr ((List.pairwise_lt_finRange n).imp fun hij =>
      ⟨hij.ne',fun y v => forwardStep_replace l b y hij.le v⟩)
  · simp

end AnyArithmetic

section ExactArithmetic
variable {K : Type} [Field K] [LinearOrder K] [FloorRing K]

theorem sumOver_eq_sum {is : List (Fin n)} (nodup : is.Nodup) {s : Finset (Fin n)}
    (hs : ∀ i, i ∈ is ↔ i ∈ s) (f : Fin n → K) : sumOver is f = ∑ i ∈ s, f i := by
  have hset : is.toFinset = s := by
    ext i
    rw [List.mem_toFinset,hs]
  rw [sumOver_exact,← hset,List.sum_toFinset f nodup]

theorem sumOver_before (k : Fin n) (f : Fin n → K) :
    sumOver (before k) f = ∑ i ∈ Finset.Iio k, f i :=
  sumOver_eq_sum ((List.nodup_finRange n).filter _) (by simp) f

theorem sumOver_after (k : Fin n) (f : Fin n → K) :
    sumOver (after k) f = ∑ i ∈ Finset.Ioi k, f i :=
  sumOver_eq_sum ((List.nodup_finRange n).filter _) (by simp) f

theorem unitLower_mulVec_forwardSubstitute (l : Mat K n n) (b : Vector K n) :
    (unitLower l).mulVec (forwardSubstitute l b).get = b.get := by
  ext i
  rw [unitLower_mulVec,get_forwardSubstitute,forwardStep,sumOver_before]
  ring

theorem upperPart_mulVec_backSubstitute (u : Mat K n n) (b : Vector K n)
    (h : ∀ i, u.entry i i ≠ 0) : (upperPart u).mulVec (backSubstitute u b).get = b.get := by
  ext i
  rw [upperPart_mulVec,get_backSubstitute,backStep,sumOver_after,mul_div_cancel₀ _ (h i)]
  ring

theorem mulVec_forwardSubstitute {l : Mat K n n} (diagonal : ∀ i, l.entry i i = 1)
    (above : ∀ i j, i < j → l.entry i j = 0) (b : Vector K n) :
    l.mulVec (forwardSubstitute l b) = b := by
  rw [Mat.mulVec_eq_iff,← unitLower_eq l diagonal above]
  exact unitLower_mulVec_forwardSubstitute l b

variable [IsStrictOrderedRing K]

theorem det_ne_zero_of_usable {u : Mat K n n} (below : ∀ i j, j < i → u.entry i j = 0)
    (usable : ∀ i, isUsable (u.entry i i) = true) : u.toMatrix.det ≠ 0 := by
  have htriangular : u.toMatrix.IsUpperTriangular := fun i j hij => below i j hij
  rw [Matrix.det_of_isUpperTriangular htriangular]
  exact Finset.prod_ne_zero_iff.mpr fun i _ => ne_zero_of_isUsable (usable i)

theorem mulVec_backSubstitute {u : Mat K n n} (below : ∀ i j, j < i → u.entry i j = 0)
    (usable : ∀ i, isUsable (u.entry i i) = true) (b : Vector K n) :
    u.mulVec (backSubstitute u b) = b := by
  rw [Mat.mulVec_eq_iff,← upperPart_eq u below]
  exact upperPart_mulVec_backSubstitute u b fun i => ne_zero_of_isUsable (usable i)

end ExactArithmetic
end Linear
end NumericWorkbench
