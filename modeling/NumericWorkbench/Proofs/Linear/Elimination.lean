import NumericWorkbench.Linear.Elimination
import NumericWorkbench.Proofs.Linear.Substitution
/-! Gaussian elimination: every stage has the solutions of the system it began with, and is
triangular as far as it got. -/
namespace NumericWorkbench
namespace Linear
open Arithmetic
variable {n : Nat}

@[simp] theorem Stage.get_column {α : Type} (s : Stage α n) (k i : Fin n) :
    (s.column k).get i = s.matrix.entry i k := by
  simp [column]

section AnyArithmetic
variable {α : Type} [Arithmetic α]

namespace Stage

theorem entry_next (s : Stage α n) (k p i j : Fin n) :
    (s.next k p).matrix.entry i j =
      if i ≤ k then s.matrix.entry (Equiv.swap k p i) j
      else if j < k then s.matrix.entry (Equiv.swap k p i) j
      else if j = k then 0.0
      else s.matrix.entry (Equiv.swap k p i) j-
        s.matrix.entry (Equiv.swap k p i) k/s.matrix.entry p k*s.matrix.entry p j := by
  simp only [next,eliminateColumn,Mat.entry_vector_ofFn]
  split_ifs <;> simp_all [Mat.entry]

theorem rhs_next (s : Stage α n) (k p i : Fin n) :
    (s.next k p).rhs.get i =
      if i ≤ k then s.rhs.get (Equiv.swap k p i)
      else s.rhs.get (Equiv.swap k p i)-
        s.matrix.entry (Equiv.swap k p i) k/s.matrix.entry p k*s.rhs.get p := by
  simp only [next,eliminateColumn,Vector.get_ofFn]
  split_ifs <;> simp

/-- The first `k` columns are zero below the diagonal, and the pivots in them are usable. -/
structure Reduced (s : Stage α n) (k : Nat) : Prop where
  number : s.number = k
  zero : ∀ i j : Fin n, j.val < k → j < i → s.matrix.entry i j = 0.0
  usable : ∀ i : Fin n, i.val < k → isUsable (s.matrix.entry i i) = true

theorem Reduced.next {s : Stage α n} {k p : Fin n} (h : s.Reduced k)
    (hp : choosePivot (s.column k) k = .ok p) : (s.next k p).Reduced (k+1) := by
  have hkp := le_of_choosePivot hp
  refine ⟨rfl,?_,?_⟩
  · intro i j hj hij
    rw [entry_next]
    split_ifs with hi hjk hjk
    · have hjk : j < k := hij.trans_le hi
      exact h.zero _ j hjk (lt_swap hkp hjk hij)
    · exact h.zero _ j hjk (lt_swap hkp hjk hij)
    · rfl
    · omega
  · intro i hi
    have hik : i ≤ k := by omega
    rw [entry_next,if_pos hik]
    rcases hik.eq_or_lt with rfl | hlt
    · rw [Equiv.swap_apply_left]
      simpa using isUsable_of_choosePivot hp
    · rw [swap_of_lt hkp hlt]
      exact h.usable i hlt

end Stage

/-- All stages of a reduction satisfy what belongs to their number. The last of them either has a
usable last pivot or is where the choice of a pivot failed. -/
structure Reduction.Keeps (r : Reduction α n) (I : Nat → Stage α n → Prop) : Prop where
  stages : ∀ t ∈ r.stages, ∃ j : Fin n, I j t
  last : ∃ (t : Stage α n) (j : Fin n), r.stages.getLast? = some t ∧ I j t ∧
    (r.stop = none → j.val+1 = n ∧ isUsable (t.matrix.entry j j) = true) ∧
    ∀ e, r.stop = some e → choosePivot (t.column j) j = .error e

/-- What holds of the first stage and is kept by every step holds of all stages. -/
theorem reduce_keeps {I : Nat → Stage α n → Prop}
    (step : ∀ (k p : Fin n) (s : Stage α n), I k s → choosePivot (s.column k) k = .ok p →
      I (k+1) (s.next k p))
    (last : Fin n) (hlast : last.val+1 = n) (ks : List (Fin n)) (s : Stage α n) (k : Fin n)
    (hks : ks = (List.finRange n).dropLast.drop k) (hs : I k s) :
    (reduce last s ks).Keeps I := by
  induction ks generalizing s k with
  | nil =>
    obtain rfl : k = last := by have hk := eq_last_of_drop_dropLast hks; omega
    have hchoice := choosePivot_last (s.column k) (k := k) fun i => by omega
    rw [Stage.get_column] at hchoice
    refine ⟨by simpa [reduce] using ⟨k,hs⟩,s,k,rfl,hs,fun h => ⟨hlast,?_⟩,fun e he => ?_⟩
    · simpa [reduce] using h
    · rw [hchoice]
      simp only [reduce] at he
      split at he <;> simp_all
  | cons c ks ih =>
    obtain ⟨rfl,hk,hrest⟩ := of_drop_dropLast hks
    rw [reduce]
    cases hp : choosePivot (s.column c) c with
    | error e =>
      refine ⟨by simpa using ⟨c,hs⟩,s,c,rfl,hs,by simp,?_⟩
      rintro e' ⟨⟩
      exact hp
    | ok p =>
      obtain ⟨hall,t,j,ht,hj⟩ := ih (s.next c p) ⟨c+1,hk⟩ hrest (step c p s hs hp)
      refine ⟨?_,t,j,?_,hj⟩
      · rintro u hu
        rcases List.mem_cons.mp hu with rfl | hu
        · exact ⟨c,hs⟩
        · exact hall u hu
      · rw [List.getLast?_cons,ht]
        rfl

theorem reduction_keeps {I : Nat → Stage α n → Prop} (a : Mat α n n) (b : Vector α n)
    (positive : 0 < n) (start : I 0 ⟨0,none,a,b⟩)
    (step : ∀ (k p : Fin n) (s : Stage α n), I k s → choosePivot (s.column k) k = .ok p →
      I (k+1) (s.next k p)) : (reduction a b positive).Keeps I := by
  have hlast : n-1+1 = n := by omega
  exact reduce_keeps step ⟨n-1,by omega⟩ hlast _ ⟨0,none,a,b⟩ ⟨0,positive⟩ rfl start

theorem exists_getLast_reduction (a : Mat α n n) (b : Vector α n) (positive : 0 < n) :
    ∃ s, (reduction a b positive).stages.getLast? = some s := by
  have hkeeps := reduction_keeps (I := fun _ _ => True) a b positive trivial (by simp)
  obtain ⟨s,-,hs,-⟩ := hkeeps.last
  exact ⟨s,hs⟩

theorem solveWithStages_eq {a : Mat α n n} {b : Vector α n} (positive : 0 < n) {s : Stage α n}
    (hs : (reduction a b positive).stages.getLast? = some s) :
    solveWithStages a b = match (reduction a b positive).stop with
      | none => .ok (backSubstitute s.matrix s.rhs,(reduction a b positive).stages)
      | some e => .error e := by
  simp only [solveWithStages,checkSystem_self positive,Vector.cast_rfl,hs]
  cases (reduction a b positive).stop <;> rfl

end AnyArithmetic

section RowOperations
variable {R : Type} [CommRing R]

theorem rowOperation_eq_iff {f : Fin n → R} {k : Fin n} (hf : f k = 0) (p : Fin n)
    (u v : Fin n → R) :
    (∀ i, u (Equiv.swap k p i)-f i*u p = v (Equiv.swap k p i)-f i*v p) ↔ u = v := by
  constructor
  · intro h
    have hp : u p = v p := by simpa [hf] using h k
    funext i
    have hi := h (Equiv.swap k p i)
    rw [Equiv.swap_apply_self,hp] at hi
    exact sub_left_injective hi
  · rintro rfl i
    rfl

theorem det_ne_zero_of_iff [IsDomain R] {a c : Matrix (Fin n) (Fin n) R} {x b d : Fin n → R}
    (hx : c.mulVec x = d) (h : ∀ y, c.mulVec y = d ↔ a.mulVec y = b) (hc : c.det ≠ 0) :
    a.det ≠ 0 := by
  intro ha
  obtain ⟨v,hv,hav⟩ := Matrix.exists_mulVec_eq_zero_iff.mpr ha
  refine hc (Matrix.exists_mulVec_eq_zero_iff.mp ⟨v,hv,?_⟩)
  have hshift : a.mulVec (x+v) = b := by rw [Matrix.mulVec_add,(h x).mp hx,hav,add_zero]
  rw [← h,Matrix.mulVec_add,hx] at hshift
  exact add_eq_left.mp hshift

end RowOperations

section ExactArithmetic
variable {K : Type} [Field K] [LinearOrder K] [FloorRing K]

namespace Stage

/-- The multiple of the pivot row that is subtracted from the row that comes to place `i`. -/
def factor (s : Stage K n) (k p i : Fin n) : K :=
  if i ≤ k then 0 else s.matrix.entry (Equiv.swap k p i) k/s.matrix.entry p k

theorem rhs_next_exact (s : Stage K n) (k p i : Fin n) :
    (s.next k p).rhs.get i = s.rhs.get (Equiv.swap k p i)-s.factor k p i*s.rhs.get p := by
  rw [rhs_next,factor]
  split_ifs
  · simp
  · rfl

theorem Reduced.zero_exact {s : Stage K n} {k : Nat} (h : s.Reduced k) {i j : Fin n}
    (hj : j.val < k) (hij : j < i) : s.matrix.entry i j = 0 :=
  (h.zero i j hj hij).trans zero_literal

/-- A system with the same solutions as the given one. -/
def Equivalent (s : Stage K n) (a : Mat K n n) (b : Vector K n) : Prop :=
  ∀ y : Vector K n, s.matrix.mulVec y = s.rhs ↔ a.mulVec y = b

variable [IsStrictOrderedRing K]

theorem Reduced.entry_next_exact {s : Stage K n} {k p : Fin n} (h : s.Reduced k)
    (hp : choosePivot (s.column k) k = .ok p) (i j : Fin n) :
    (s.next k p).matrix.entry i j =
      s.matrix.entry (Equiv.swap k p i) j-s.factor k p i*s.matrix.entry p j := by
  have hkp := le_of_choosePivot hp
  have hpivot : s.matrix.entry p k ≠ 0 := by
    simpa using ne_zero_of_isUsable (isUsable_of_choosePivot hp)
  rw [entry_next,factor]
  split_ifs with hi hjk hjk
  · simp
  · rw [h.zero_exact hjk (hjk.trans_le hkp),mul_zero,sub_zero]
  · subst hjk
    rw [div_mul_cancel₀ _ hpivot,sub_self,zero_literal]
  · rfl

theorem Reduced.next_equivalent {s : Stage K n} {k p : Fin n} (h : s.Reduced k)
    (hp : choosePivot (s.column k) k = .ok p) : (s.next k p).Equivalent s.matrix s.rhs := by
  intro y
  have hrow (i : Fin n) : (s.next k p).matrix.toMatrix.mulVec y.get i =
      s.matrix.toMatrix.mulVec y.get (Equiv.swap k p i)-
        s.factor k p i*s.matrix.toMatrix.mulVec y.get p := by
    simp only [Matrix.mulVec,dotProduct,Mat.toMatrix_apply,h.entry_next_exact hp,sub_mul,
      Finset.sum_sub_distrib,Finset.mul_sum,mul_assoc]
  have hk : s.factor k p k = 0 := if_pos le_rfl
  have hrows := rowOperation_eq_iff hk p (s.matrix.toMatrix.mulVec y.get) s.rhs.get
  rw [Mat.mulVec_eq_iff,Mat.mulVec_eq_iff,← hrows,funext_iff]
  simp only [hrow,rhs_next_exact]

theorem Reduced.solution {s : Stage K n} {a : Mat K n n} {b : Vector K n} {k : Fin n}
    (h : s.Reduced k) (hk : k.val+1 = n) (usable : isUsable (s.matrix.entry k k) = true)
    (equivalent : s.Equivalent a b) :
    a.toMatrix.det ≠ 0 ∧ a.mulVec (backSubstitute s.matrix s.rhs) = b := by
  have hbelow (i j : Fin n) (hij : j < i) : s.matrix.entry i j = 0 :=
    h.zero_exact (by omega) hij
  have husable (i : Fin n) : isUsable (s.matrix.entry i i) = true := by
    rcases Nat.lt_or_ge i k with hi | hi
    · exact h.usable i hi
    · obtain rfl : i = k := by omega
      exact usable
  have hx := mulVec_backSubstitute hbelow husable s.rhs
  have hiff (y : Fin n → K) :
      s.matrix.toMatrix.mulVec y = s.rhs.get ↔ a.toMatrix.mulVec y = b.get := by
    have hy : (Vector.ofFn y).get = y := funext (Vector.get_ofFn y)
    simpa only [Mat.mulVec_eq_iff,hy] using equivalent (Vector.ofFn y)
  have hdet := det_ne_zero_of_usable hbelow husable
  exact ⟨det_ne_zero_of_iff ((Mat.mulVec_eq_iff _ _ _).mp hx) hiff hdet,(equivalent _).mp hx⟩

end Stage

theorem reduction_equivalent [IsStrictOrderedRing K] (a : Mat K n n) (b : Vector K n)
    (positive : 0 < n) :
    (reduction a b positive).Keeps fun k t => t.Reduced k ∧ t.Equivalent a b := by
  apply reduction_keeps
  · exact ⟨⟨rfl,by simp,by simp⟩,fun y => Iff.rfl⟩
  · rintro k p s ⟨hreduced,hequivalent⟩ hp
    exact ⟨hreduced.next hp,fun y => (hreduced.next_equivalent hp y).trans (hequivalent y)⟩

theorem solveWithStages_sound [IsStrictOrderedRing K] {a : Mat K n n} {b x : Vector K n}
    {stages : List (Stage K n)} (positive : 0 < n) (h : solveWithStages a b = .ok (x,stages)) :
    a.toMatrix.det ≠ 0 ∧ a.mulVec x = b ∧ ∀ s ∈ stages, s.Equivalent a b := by
  obtain ⟨hall,t,j,ht,⟨hreduced,hequivalent⟩,hnone,-⟩ := reduction_equivalent a b positive
  rw [solveWithStages_eq positive ht] at h
  cases hstop : (reduction a b positive).stop with
  | some e => simp [hstop] at h
  | none =>
    obtain ⟨hj,husable⟩ := hnone hstop
    obtain ⟨hdet,hx⟩ := hreduced.solution hj husable hequivalent
    simp only [hstop,Except.ok.injEq,Prod.mk.injEq] at h
    obtain ⟨rfl,rfl⟩ := h
    refine ⟨hdet,hx,fun s hs => ?_⟩
    obtain ⟨-,-,hs⟩ := hall s hs
    exact hs

/-- Stage `k` is reduced as far as it can be: below its first `k` rows column `k` has its largest
entry in row `p`, and that one is close to zero. -/
structure Stage.Stuck (s : Stage K n) (k p : Fin n) : Prop where
  number : s.number = k
  zero : ∀ i j, j < k → j < i → s.matrix.entry i j = 0
  le : k ≤ p
  largest : ∀ i, k ≤ i → |s.matrix.entry i k| ≤ |s.matrix.entry p k|
  small : |s.matrix.entry p k| < 1e-15

theorem solveWithStages_stuck [IsStrictOrderedRing K] {a : Mat K n n} {b : Vector K n}
    {e : Error K} (positive : 0 < n) (h : solveWithStages a b = .error e) :
    ∃ (s : Stage K n) (k p : Fin n), (reduction a b positive).stages.getLast? = some s ∧
      s.Stuck k p ∧ s.Equivalent a b ∧ e = .singular k (s.matrix.entry p k) := by
  obtain ⟨-,t,j,ht,⟨hreduced,hequivalent⟩,-,hsome⟩ := reduction_equivalent a b positive
  rw [solveWithStages_eq positive ht] at h
  cases hstop : (reduction a b positive).stop with
  | none => simp [hstop] at h
  | some e' =>
    simp only [hstop,Except.error.injEq] at h
    subst h
    obtain ⟨hsmall,he⟩ := choosePivot_eq_error.mp (hsome _ hstop)
    rw [isUsable_eq_false_exact,Stage.get_column] at hsmall
    rw [Stage.get_column] at he
    have hlargest (i : Fin n) (hi : j ≤ i) :
        |t.matrix.entry i j| ≤ |t.matrix.entry (largestFrom (t.column j) j) j| := by
      simpa using abs_le_largestFrom (t.column j) j i hi
    have hzero (i c : Fin n) (hc : c < j) (hci : c < i) : t.matrix.entry i c = 0 :=
      hreduced.zero_exact hc hci
    exact ⟨t,j,_,ht,⟨hreduced.number,hzero,le_largestFrom _ j,hlargest,hsmall⟩,hequivalent,he⟩

/-- Elimination finds the solution of a system with an invertible matrix, through stages that all
have the same solutions. It is refused only where the last stage is stuck, and always if the
matrix is singular. -/
theorem solveWithStages_spec [IsStrictOrderedRing K] (a : Mat K n n) (b : Vector K n)
    (positive : 0 < n) :
    (∀ x stages, solveWithStages a b = .ok (x,stages) →
      IsUnit a.toMatrix ∧ a.mulVec x = b ∧ ∀ s ∈ stages, s.Equivalent a b) ∧
    (∀ e, solveWithStages a b = .error e → ∃ (s : Stage K n) (k p : Fin n),
      (reduction a b positive).stages.getLast? = some s ∧ s.Stuck k p ∧ s.Equivalent a b ∧
        e = .singular k (s.matrix.entry p k)) ∧
    (a.toMatrix.det = 0 → ∃ k pivot, solveWithStages a b = .error (.singular k pivot)) := by
  refine ⟨?_,fun e h => solveWithStages_stuck positive h,?_⟩
  · intro x stages h
    obtain ⟨hdet,hx,hall⟩ := solveWithStages_sound positive h
    exact ⟨(Matrix.isUnit_iff_isUnit_det _).mpr hdet.isUnit,hx,hall⟩
  · intro hdet
    cases h : solveWithStages a b with
    | ok result =>
      obtain ⟨x,stages⟩ := result
      exact absurd hdet (solveWithStages_sound positive h).1
    | error e =>
      obtain ⟨s,k,p,-,-,-,rfl⟩ := solveWithStages_stuck positive h
      exact ⟨k,_,rfl⟩

theorem solveWithStages_spec_two :
    (IsUnit (Mat.toMatrix (#v[#v[0,2],#v[1,1]] : Mat ℚ 2 2)) ∧
      ∀ y : Vector ℚ 2,
        Mat.mulVec (#v[#v[1,1],#v[0,2]] : Mat ℚ 2 2) y = #v[3,2] ↔
          Mat.mulVec (#v[#v[0,2],#v[1,1]] : Mat ℚ 2 2) y = #v[2,3]) ∧
    ∃ k pivot, solveWithStages (#v[#v[1,2],#v[2,4]] : Mat ℚ 2 2) #v[1,1] =
      .error (.singular k pivot) := by
  have hsolved : solveWithStages (#v[#v[0,2],#v[1,1]] : Mat ℚ 2 2) #v[2,3] =
      .ok (#v[2,1],[⟨0,none,#v[#v[0,2],#v[1,1]],#v[2,3]⟩,
        ⟨1,some 1,#v[#v[1,1],#v[0,2]],#v[3,2]⟩]) := by decide +kernel
  have hdet : Matrix.det (Mat.toMatrix (#v[#v[1,2],#v[2,4]] : Mat ℚ 2 2)) = 0 := by
    rw [Matrix.det_fin_two]
    decide +kernel
  obtain ⟨hunit,-,hall⟩ := (solveWithStages_spec _ _ (by decide)).1 _ _ hsolved
  have hlast := hall ⟨1,some 1,#v[#v[1,1],#v[0,2]],#v[3,2]⟩ (by simp)
  exact ⟨⟨hunit,hlast⟩,(solveWithStages_spec _ _ (by decide)).2.2 hdet⟩

end ExactArithmetic
end Linear
end NumericWorkbench
