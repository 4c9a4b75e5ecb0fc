import NumericWorkbench.Linear.Factorization
import NumericWorkbench.Proofs.Linear.Substitution
/-! The factorization: the factors have their shape whatever the arithmetic is, and over exact
arithmetic their product is the matrix with its rows in the order found. -/
namespace NumericWorkbench
namespace Linear
open Arithmetic
variable {n : Nat}

section AnyArithmetic
variable {α : Type} [Arithmetic α]

namespace Progress

/-- What the finished columns of `L` and rows of `U` leave of entry `(i,j)`. -/
def left (s : Progress α n) (k i j : Fin n) : α :=
  remainder s.rows s.factors.lower s.factors.upper k i j

def candidates (s : Progress α n) (k : Fin n) : Vector α n := Vector.ofFn fun i => s.left k i k

@[simp] theorem get_candidates (s : Progress α n) (k i : Fin n) :
    (s.candidates k).get i = s.left k i k := by
  simp [candidates]

/-- The step with a given pivot row, entry by entry. -/
def advance (s : Progress α n) (k p : Fin n) : Progress α n where
  rows := Vec.exchange s.rows k p
  factors.order := Vec.exchange s.factors.order k p
  factors.lower := Mat.ofFn fun i j =>
    if j = k then
      if i < k then 0.0 else if i = k then 1.0 else s.left k (Equiv.swap k p i) k/s.left k p k
    else s.factors.lower.entry (Equiv.swap k p i) j
  factors.upper := Mat.ofFn fun i j =>
    if i = k then if j < k then 0.0 else s.left k p j else s.factors.upper.entry i j

theorem remainder_exchange (s : Progress α n) (k p i j : Fin n) :
    remainder (Vec.exchange s.rows k p) (Vec.exchange s.factors.lower k p) s.factors.upper k i j =
      s.left k (Equiv.swap k p i) j := by
  simp [left,remainder]

theorem next_eq (s : Progress α n) (k : Fin n) :
    s.next k = (choosePivot (s.candidates k) k).map (s.advance k) := by
  change (choosePivot (s.candidates k) k >>= fun p => _) = _
  cases choosePivot (s.candidates k) k with
  | error e => rfl
  | ok p =>
    rw [ok_bind]
    simp only [Except.map,advance,remainder_exchange,Equiv.swap_apply_left]
    refine congrArg Except.ok ?_
    congr 2
    · apply Mat.ext
      intro i j
      simp only [Mat.entry_vector_ofFn,Vec.get_replace,Vector.get_ofFn,Mat.entry_ofFn,lt_irrefl,
        if_false]
      split_ifs <;> simp [Mat.entry]
    · apply Mat.ext
      intro i j
      rw [Mat.entry_ofFn,Mat.entry,Vec.get_replace]
      split_ifs <;> simp_all [Mat.entry]

/-- The factors have their shape as far as they are known, and each pivot was accepted. -/
structure Shaped (a : Mat α n n) (s : Progress α n) (k : Nat) : Prop where
  order : Function.Injective s.factors.order.get
  rows : ∀ i, s.rows.get i = a.get (s.factors.order.get i)
  lower_diagonal : ∀ i : Fin n, i.val < k → s.factors.lower.entry i i = 1.0
  lower_above : ∀ i j, i < j → s.factors.lower.entry i j = 0.0
  lower_later : ∀ i j : Fin n, k ≤ j.val → s.factors.lower.entry i j = 0.0
  upper_below : ∀ i j, j < i → s.factors.upper.entry i j = 0.0
  upper_later : ∀ i j : Fin n, k ≤ i.val → s.factors.upper.entry i j = 0.0
  usable : ∀ i : Fin n, i.val < k → isUsable (s.factors.upper.entry i i) = true

theorem Shaped.advance {a : Mat α n n} {s : Progress α n} {k p : Fin n} (h : s.Shaped a k)
    (hp : choosePivot (s.candidates k) k = .ok p) : (s.advance k p).Shaped a (k+1) where
  order := by
    intro i j hij
    simp only [Progress.advance,Vec.get_exchange] at hij
    exact (Equiv.swap k p).injective (h.order hij)
  rows i := by simp only [Progress.advance,Vec.get_exchange,h.rows]
  lower_diagonal i hi := by
    simp only [Progress.advance,Mat.entry_ofFn]
    rcases (show i ≤ k by omega).eq_or_lt with rfl | hlt
    · simp
    · rw [if_neg hlt.ne,swap_of_lt (le_of_choosePivot hp) hlt]
      exact h.lower_diagonal i hlt
  lower_above i j hij := by
    simp only [Progress.advance,Mat.entry_ofFn]
    rcases lt_trichotomy j k with hjk | rfl | hkj
    · rw [if_neg hjk.ne,swap_of_lt (le_of_choosePivot hp) (hij.trans hjk)]
      exact h.lower_above i j hij
    · rw [if_pos rfl,if_pos hij]
    · rw [if_neg hkj.ne']
      exact h.lower_later _ j hkj.le
  lower_later i j hj := by
    have hkj : k < j := by omega
    simp only [Progress.advance,Mat.entry_ofFn,if_neg hkj.ne']
    exact h.lower_later _ j hkj.le
  upper_below i j hij := by
    simp only [Progress.advance,Mat.entry_ofFn]
    split_ifs with hik hjk
    · rfl
    · exact absurd (hik ▸ hij) hjk
    · exact h.upper_below i j hij
  upper_later i j hi := by
    have hki : k < i := by omega
    simp only [Progress.advance,Mat.entry_ofFn,if_neg hki.ne']
    exact h.upper_later i j hki.le
  usable i hi := by
    simp only [Progress.advance,Mat.entry_ofFn]
    rcases (show i ≤ k by omega).eq_or_lt with rfl | hlt
    · simpa using isUsable_of_choosePivot hp
    · rw [if_neg hlt.ne]
      exact h.usable i hlt

def start (a : Mat α n n) : Progress α n :=
  ⟨a,Vector.ofFn id,Vector.replicate n zeros,Vector.replicate n zeros⟩

theorem shaped_start (a : Mat α n n) : (start a).Shaped a 0 where
  order i j hij := by simpa [start] using hij
  rows i := by simp [start]
  lower_diagonal := by simp
  lower_above i j _ := by simp [start,zeros,Mat.entry]
  lower_later i j _ := by simp [start,zeros,Mat.entry]
  upper_below i j _ := by simp [start,zeros,Mat.entry]
  upper_later i j _ := by simp [start,zeros,Mat.entry]
  usable := by simp

end Progress

theorem foldlM_next_spec {I : Nat → Progress α n → Prop}
    (step : ∀ (k p : Fin n) (s : Progress α n), I k s → choosePivot (s.candidates k) k = .ok p →
      I (k+1) (s.advance k p))
    (ks : List (Fin n)) (s : Progress α n) (k : Nat) (hk : k ≤ n)
    (hks : ks = (List.finRange n).drop k) (hs : I k s) :
    match ks.foldlM Progress.next s with
    | .ok t => I n t
    | .error e => ∃ (j : Fin n) (t : Progress α n), I j t ∧
        choosePivot (t.candidates j) j = .error e := by
  induction ks generalizing s k with
  | nil =>
    have hkn : k = n := by
      have hlen := congrArg List.length hks
      simp at hlen
      omega
    subst hkn
    exact hs
  | cons c ks ih =>
    have hlt : k < n := by
      have hlen := congrArg List.length hks
      simp at hlen
      omega
    rw [show k = (⟨k,hlt⟩ : Fin n).val from rfl,drop_finRange] at hks
    obtain ⟨rfl,hrest⟩ := List.cons.inj hks
    rw [List.foldlM_cons,Progress.next_eq]
    cases hp : choosePivot (s.candidates ⟨k,hlt⟩) ⟨k,hlt⟩ with
    | error e => exact ⟨_,s,hs,hp⟩
    | ok p => exact ih _ (k+1) hlt hrest (step _ p s hs hp)

theorem factorize_eq (a : Mat α n n) (positive : 0 < n) :
    factorize a =
      ((List.finRange n).foldlM Progress.next (Progress.start a)).map Progress.factors := by
  simp only [factorize,checkSquare_self positive]
  rfl

theorem factorize_spec {I : Nat → Progress α n → Prop} (a : Mat α n n) (positive : 0 < n)
    (start : I 0 (Progress.start a))
    (step : ∀ (k p : Fin n) (s : Progress α n), I k s → choosePivot (s.candidates k) k = .ok p →
      I (k+1) (s.advance k p)) :
    match factorize a with
    | .ok f => ∃ t : Progress α n, t.factors = f ∧ I n t
    | .error e => ∃ (j : Fin n) (t : Progress α n), I j t ∧
        choosePivot (t.candidates j) j = .error e := by
  have hrun := foldlM_next_spec step (List.finRange n) (Progress.start a) 0 n.zero_le rfl start
  rw [factorize_eq a positive]
  revert hrun
  cases (List.finRange n).foldlM Progress.next (Progress.start a) with
  | error e => exact id
  | ok t => exact fun ht => ⟨t,rfl,ht⟩

theorem factorize_error {a : Mat α n n} {e : Error α} (positive : 0 < n)
    (h : factorize a = .error e) : ∃ stage pivot, e = .singular stage pivot := by
  have hspec := factorize_spec (I := fun _ _ => True) a positive trivial fun _ _ _ _ _ => trivial
  rw [h] at hspec
  obtain ⟨j,t,-,hstop⟩ := hspec
  exact ⟨j,_,(choosePivot_eq_error.mp hstop).2⟩

theorem positive_of_factorize {a : Mat α n n} {f : Factors α n} (h : factorize a = .ok f) :
    0 < n := by
  by_contra hn
  obtain rfl : n = 0 := by omega
  cases h

theorem solveFactored_self (positive : 0 < n) (p l u : Mat α n n) (b : Vector α n) :
    solveFactored p l u b = backSubstituteChecked u (forwardSubstitute l (p.mulVec b)) := by
  simp only [solveFactored,checkSystem_self positive]
  simp

end AnyArithmetic

section Residual
variable {R : Type} [CommRing R]

/-- What the factors leave of the matrix with its rows in their present order. -/
def Progress.residual (s : Progress R n) : Matrix (Fin n) (Fin n) R :=
  s.rows.toMatrix-s.factors.lower.toMatrix*s.factors.upper.toMatrix

theorem Progress.residual_apply (s : Progress R n) (i j : Fin n) :
    s.residual i j =
      s.rows.entry i j-∑ t, s.factors.lower.entry i t*s.factors.upper.entry t j := by
  simp [residual,Matrix.mul_apply]

end Residual

section ExactArithmetic
variable {K : Type} [Field K] [LinearOrder K] [FloorRing K]

namespace Progress

/-- The rows and columns that are done are matched by the factors. -/
structure Matched (s : Progress K n) (k : Nat) : Prop where
  row : ∀ i j : Fin n, i.val < k → s.residual i j = 0
  column : ∀ i j : Fin n, j.val < k → s.residual i j = 0
  bounded : ∀ i j, |s.factors.lower.entry i j| ≤ 1

theorem Shaped.lower_later_exact {a : Mat K n n} {s : Progress K n} {k : Nat} (h : s.Shaped a k)
    {i j : Fin n} (hj : k ≤ j.val) : s.factors.lower.entry i j = 0 :=
  (h.lower_later i j hj).trans zero_literal

theorem Shaped.left_eq {a : Mat K n n} {s : Progress K n} {k : Fin n} (h : s.Shaped a k)
    (i j : Fin n) : s.left k i j = s.residual i j := by
  rw [left,remainder,sumOver_before,residual_apply]
  congr 1
  apply Finset.sum_subset (Finset.subset_univ _)
  intro t _ ht
  rw [Finset.mem_Iio,not_lt] at ht
  rw [h.lower_later_exact ht,zero_mul]

theorem Shaped.lower_advance {a : Mat K n n} {s : Progress K n} {k : Fin n} (h : s.Shaped a k)
    (p i : Fin n) : (s.advance k p).factors.lower.entry i k =
      if i < k then 0 else if i = k then 1
      else s.residual (Equiv.swap k p i) k/s.residual p k := by
  rw [← h.left_eq,← h.left_eq]
  simp only [Progress.advance,Mat.entry_ofFn,if_true,zero_literal,one_literal]

theorem upper_advance {a : Mat K n n} {s : Progress K n} {k : Fin n} (h : s.Shaped a k)
    (hm : s.Matched k) (p j : Fin n) :
    (s.advance k p).factors.upper.entry k j = s.residual p j := by
  rw [← h.left_eq]
  simp only [advance,Mat.entry_ofFn,if_true]
  split_ifs with hj
  · rw [h.left_eq,hm.column p j hj,zero_literal]
  · rfl

theorem residual_advance {a : Mat K n n} {s : Progress K n} {k : Fin n} (h : s.Shaped a k)
    (hm : s.Matched k) (p i j : Fin n) :
    (s.advance k p).residual i j = s.residual (Equiv.swap k p i) j-
      (s.advance k p).factors.lower.entry i k*s.residual p j := by
  have hterm (t : Fin n) :
      (s.advance k p).factors.lower.entry i t*(s.advance k p).factors.upper.entry t j =
        s.factors.lower.entry (Equiv.swap k p i) t*s.factors.upper.entry t j+
          if t = k then (s.advance k p).factors.lower.entry i k*s.residual p j else 0 := by
    by_cases ht : t = k
    · subst ht
      rw [upper_advance h hm,h.lower_later_exact le_rfl,if_pos rfl,zero_mul,zero_add]
    · simp [advance,ht]
  have hrows : (s.advance k p).rows.entry i j = s.rows.entry (Equiv.swap k p i) j := by
    simp [advance]
  rw [residual_apply (s.advance k p),residual_apply s (Equiv.swap k p i),hrows,
    Finset.sum_congr rfl fun t _ => hterm t,Finset.sum_add_distrib,Finset.sum_ite_eq',
    if_pos (Finset.mem_univ k),sub_sub]

variable [IsStrictOrderedRing K]

theorem Matched.advance {a : Mat K n n} {s : Progress K n} {k p : Fin n} (h : s.Shaped a k)
    (hm : s.Matched k) (hp : choosePivot (s.candidates k) k = .ok p) :
    (s.advance k p).Matched (k+1) := by
  have hkp := le_of_choosePivot hp
  have hpivot : s.residual p k ≠ 0 := by
    simpa [h.left_eq] using ne_zero_of_isUsable (isUsable_of_choosePivot hp)
  refine ⟨?_,?_,?_⟩
  · intro i j hi
    rw [residual_advance h hm,h.lower_advance]
    rcases (show i ≤ k by omega).eq_or_lt with rfl | hlt
    · simp
    · rw [if_pos hlt,swap_of_lt hkp hlt,hm.row i j hlt,zero_mul,sub_zero]
  · intro i j hj
    rw [residual_advance h hm]
    rcases (show j ≤ k by omega).eq_or_lt with rfl | hlt
    · rw [h.lower_advance]
      split_ifs with hij hij
      · rw [swap_of_lt hkp hij,hm.row i j hij,zero_mul,sub_zero]
      · rw [hij,Equiv.swap_apply_left,one_mul,sub_self]
      · rw [div_mul_cancel₀ _ hpivot,sub_self]
    · rw [hm.column _ j hlt,hm.column p j hlt,mul_zero,sub_zero]
  · intro i j
    by_cases hjk : j = k
    · subst hjk
      rw [h.lower_advance]
      split_ifs with hij _
      · simp
      · simp
      · have hlargest := abs_le_largestFrom (s.candidates j) j _ (le_swap hkp (not_lt.mp hij))
        rw [(choosePivot_eq_ok.mp hp).1,get_candidates,get_candidates,h.left_eq,h.left_eq]
          at hlargest
        rw [abs_div]
        exact div_le_one_of_le₀ hlargest (abs_nonneg _)
    · simpa [Progress.advance,hjk] using hm.bounded (Equiv.swap k p i) j

theorem matched_start (a : Mat K n n) : (start a).Matched 0 where
  row := by simp
  column := by simp
  bounded i j := by norm_num [start,zeros,Mat.entry]

end Progress

/-- Factors of a matrix, from exchanges of its rows that keep the entries of `L` small. -/
structure Factors.IsFactorization (f : Factors K n) (a : Mat K n n) : Prop where
  order : Function.Bijective f.order.get
  lower_diagonal : ∀ i, f.lower.entry i i = 1
  lower_above : ∀ i j, i < j → f.lower.entry i j = 0
  lower_bounded : ∀ i j, |f.lower.entry i j| ≤ 1
  upper_below : ∀ i j, j < i → f.upper.entry i j = 0
  pivot : ∀ i, 1e-15 ≤ |f.upper.entry i i|
  product : f.permutation.mul a = f.lower.mul f.upper

namespace Factors

theorem permutation_entry (f : Factors K n) (i j : Fin n) :
    f.permutation.entry i j = if f.order.get i = j then 1 else 0 := by
  rw [permutation,Mat.permutation,Mat.entry_ofFn,zero_literal,one_literal]

theorem permutation_mulVec (f : Factors K n) (b : Vector K n) (i : Fin n) :
    (f.permutation.mulVec b).get i = b.get (f.order.get i) := by
  rw [Mat.get_mulVec]
  simp [Matrix.mulVec,dotProduct,permutation_entry]

theorem permutation_mul (f : Factors K n) (a : Mat K n n) (i j : Fin n) :
    (f.permutation.mul a).entry i j = a.entry (f.order.get i) j := by
  rw [← Mat.toMatrix_apply,Mat.toMatrix_mul,Matrix.mul_apply]
  simp [permutation_entry]

end Factors

theorem Progress.isFactorization [IsStrictOrderedRing K] {a : Mat K n n} {s : Progress K n}
    (h : s.Shaped a n) (hm : s.Matched n) : s.factors.IsFactorization a where
  order := Finite.injective_iff_bijective.mp h.order
  lower_diagonal i := (h.lower_diagonal i i.isLt).trans one_literal
  lower_above i j hij := (h.lower_above i j hij).trans zero_literal
  lower_bounded := hm.bounded
  upper_below i j hij := (h.upper_below i j hij).trans zero_literal
  pivot i := (isUsable_exact _).mp (h.usable i i.isLt)
  product := by
    apply Mat.ext
    intro i j
    have hrow : a.entry (s.factors.order.get i) j = s.rows.entry i j := by
      rw [Mat.entry,Mat.entry,h.rows]
    have hzero := sub_eq_zero.mp (hm.row i j i.isLt)
    rw [s.factors.permutation_mul,hrow,← Mat.toMatrix_apply (s.factors.lower.mul _),
      Mat.toMatrix_mul]
    exact hzero

theorem isFactorization_of_factorize [IsStrictOrderedRing K] {a : Mat K n n} {f : Factors K n}
    (positive : 0 < n) (h : factorize a = .ok f) : f.IsFactorization a := by
  have hspec := factorize_spec (I := fun k s => s.Shaped a k ∧ s.Matched k) a positive
    ⟨Progress.shaped_start a,Progress.matched_start a⟩
    fun k p s hs hp => ⟨hs.1.advance hp,hs.2.advance hs.1 hp⟩
  rw [h] at hspec
  obtain ⟨t,rfl,hshaped,hmatched⟩ := hspec
  exact Progress.isFactorization hshaped hmatched

namespace Factors.IsFactorization
variable {f : Factors K n} {a : Mat K n n}

theorem upper_usable (h : f.IsFactorization a) (i : Fin n) : isUsable (f.upper.entry i i) = true :=
  (isUsable_exact _).mpr (h.pivot i)

theorem det_permutation_mul (h : f.IsFactorization a) :
    f.permutation.toMatrix.det*a.toMatrix.det = f.upper.toMatrix.det := by
  have hlower : f.lower.toMatrix.det = 1 := by
    have htriangular : f.lower.toMatrix.IsLowerTriangular := fun i j hij => h.lower_above i j hij
    rw [Matrix.det_of_isLowerTriangular _ htriangular]
    exact Finset.prod_eq_one fun i _ => h.lower_diagonal i
  have hproduct := congrArg (fun c => c.toMatrix.det) h.product
  simpa only [Mat.toMatrix_mul,Matrix.det_mul,hlower,one_mul] using hproduct

variable [IsStrictOrderedRing K]

theorem det_ne_zero (h : f.IsFactorization a) : a.toMatrix.det ≠ 0 := by
  have hproduct := h.det_permutation_mul
  intro hdet
  rw [hdet,mul_zero] at hproduct
  exact det_ne_zero_of_usable h.upper_below h.upper_usable hproduct.symm

theorem mulVec_injective (h : f.IsFactorization a) {x y : Vector K n}
    (hxy : a.mulVec x = a.mulVec y) : x = y := by
  rw [Mat.mulVec_eq_iff,Mat.get_mulVec] at hxy
  have hunit := (Matrix.isUnit_iff_isUnit_det a.toMatrix).mpr h.det_ne_zero.isUnit
  exact Vec.ext (congrFun (Matrix.mulVec_injective_of_isUnit hunit hxy))

theorem solve (h : f.IsFactorization a) (positive : 0 < n) (b : Vector K n) :
    ∃ x, f.solve b = .ok x ∧ ∀ y : Vector K n, a.mulVec y = b ↔ y = x := by
  let z := forwardSubstitute f.lower (f.permutation.mulVec b)
  let x := backSubstitute f.upper z
  have hsolve : f.solve b = .ok x := by
    rw [Factors.solve,solveFactored_self positive,backSubstituteChecked_eq _ _ h.upper_usable]
  have hpermuted : f.permutation.mulVec (a.mulVec x) = f.permutation.mulVec b := by
    calc f.permutation.mulVec (a.mulVec x) = f.lower.mulVec (f.upper.mulVec x) := by
          rw [← Mat.mul_mulVec,h.product,Mat.mul_mulVec]
      _ = f.lower.mulVec z := by rw [mulVec_backSubstitute h.upper_below h.upper_usable]
      _ = f.permutation.mulVec b := mulVec_forwardSubstitute h.lower_diagonal h.lower_above _
  have hx : a.mulVec x = b := by
    apply Vec.ext
    intro i
    obtain ⟨j,rfl⟩ := h.order.2 i
    rw [← f.permutation_mulVec,← f.permutation_mulVec,hpermuted]
  refine ⟨x,hsolve,fun y => ⟨fun hy => h.mulVec_injective (hy.trans hx.symm),?_⟩⟩
  rintro rfl
  exact hx

end Factors.IsFactorization

/-- A matrix is factorized with small entries in `L` and pivots in `U` that are not close to zero,
and then every system with it is solved. No singular matrix is factorized. -/
theorem factorize_correct [IsStrictOrderedRing K] (a : Mat K n n) (positive : 0 < n) :
    (∀ f, factorize a = .ok f →
      f.IsFactorization a ∧
      (∀ i j, f.permutation.entry i j = if f.order.get i = j then 1 else 0) ∧
      IsUnit a.toMatrix ∧
      ∀ b : Vector K n, ∃ x, f.solve b = .ok x ∧ ∀ y : Vector K n, a.mulVec y = b ↔ y = x) ∧
    (a.toMatrix.det = 0 → ∃ stage pivot, factorize a = .error (.singular stage pivot)) := by
  constructor
  · intro f hf
    have h := isFactorization_of_factorize positive hf
    have hunit := (Matrix.isUnit_iff_isUnit_det a.toMatrix).mpr h.det_ne_zero.isUnit
    exact ⟨h,f.permutation_entry,hunit,h.solve positive⟩
  · intro hdet
    cases hf : factorize a with
    | ok f => exact absurd hdet (isFactorization_of_factorize positive hf).det_ne_zero
    | error e =>
      obtain ⟨stage,pivot,rfl⟩ := factorize_error positive hf
      exact ⟨stage,pivot,rfl⟩

theorem factorize_correct_small :
    (Factors.IsFactorization
        ⟨#v[2,0,1],#v[#v[1,0,0],#v[0,1,0],#v[1/2,1/4,1]],#v[#v[2,1,0],#v[0,2,1],#v[0,0,3/4]]⟩
        (#v[#v[0,2,1],#v[1,1,1],#v[2,1,0]] : Mat ℚ 3 3) ∧
      IsUnit (Mat.toMatrix (#v[#v[0,2,1],#v[1,1,1],#v[2,1,0]] : Mat ℚ 3 3))) ∧
    ∃ stage pivot, factorize (#v[#v[1,2],#v[2,4]] : Mat ℚ 2 2) =
      .error (.singular stage pivot) := by
  have hfactors : factorize (#v[#v[0,2,1],#v[1,1,1],#v[2,1,0]] : Mat ℚ 3 3) =
      .ok ⟨#v[2,0,1],#v[#v[1,0,0],#v[0,1,0],#v[1/2,1/4,1]],
        #v[#v[2,1,0],#v[0,2,1],#v[0,0,3/4]]⟩ := by decide +kernel
  have hdet : Matrix.det (Mat.toMatrix (#v[#v[1,2],#v[2,4]] : Mat ℚ 2 2)) = 0 := by
    rw [Matrix.det_fin_two]
    decide +kernel
  obtain ⟨hcorrect,-,hunit,-⟩ := (factorize_correct _ (by decide)).1 _ hfactors
  exact ⟨⟨hcorrect,hunit⟩,(factorize_correct _ (by decide)).2 hdet⟩

end ExactArithmetic
end Linear
end NumericWorkbench
