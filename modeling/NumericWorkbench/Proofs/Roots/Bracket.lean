import NumericWorkbench.Proofs.Exact
import NumericWorkbench.Proofs.Roots.Ends
/-! Bisection over exact arithmetic: every bracket encloses a change of sign and is half as wide as
the one before it. -/
namespace NumericWorkbench
namespace Roots
open Arithmetic
variable {K : Type} [Field K] [LinearOrder K]

/-- A step of a search between `a` and `b`: its bracket lies between them, holds a change of sign,
and has been halved as often as there were steps before. -/
structure Step.Encloses (f : K → K) (a b : K) (t : Step K) : Prop where
  left_mem : t.left ∈ Set.uIcc a b
  right_mem : t.right ∈ Set.uIcc a b
  sign : f t.left*f t.right < 0
  counted : 1 ≤ t.index
  width : |t.right-t.left| = |b-a|/2^(t.index-1)
  midpoint : t.midpoint = (t.left+t.right)/2
  value : t.value = f t.midpoint

theorem Step.Encloses.half_width {f : K → K} {a b : K} {t : Step K} (h : t.Encloses f a b) :
    |t.right-t.left|/2 = |b-a|/2^t.index := by
  obtain ⟨i,hi⟩ := Nat.exists_eq_add_of_le' h.counted
  rw [h.width,hi,Nat.add_sub_cancel,pow_succ,div_div]

section Midpoint
variable [IsStrictOrderedRing K]

theorem abs_midpoint_sub_left (l r : K) : |(l+r)/2-l| = |r-l|/2 := by
  rw [show (l+r)/2-l = (r-l)/2 by ring,abs_div,abs_two]

theorem abs_right_sub_midpoint (l r : K) : |r-(l+r)/2| = |r-l|/2 := by
  rw [show r-(l+r)/2 = (r-l)/2 by ring,abs_div,abs_two]

theorem midpoint_mem_uIoo {l r : K} (hne : l ≠ r) : (l+r)/2 ∈ Set.uIoo l r := by
  rcases hne.lt_or_gt with h | h
  · rw [Set.uIoo_of_lt h]
    exact ⟨left_lt_add_div_two.mpr h,add_div_two_lt_right.mpr h⟩
  · rw [Set.uIoo_of_gt h,add_comm]
    exact ⟨left_lt_add_div_two.mpr h,add_div_two_lt_right.mpr h⟩

theorem sign_iff {x y z : K} (hxz : x*z < 0) (hy : y ≠ 0) : y*z < 0 ↔ ¬x*y < 0 := by
  rcases mul_neg_iff.mp hxz with ⟨hx,hz⟩ | ⟨hx,hz⟩ <;> rcases hy.lt_or_gt with hy' | hy' <;>
    simp [mul_neg_iff,hx,hz,hy',hx.not_gt,hz.not_gt,hy'.not_gt]

variable {f : K → K} {a b : K} {t : Step K}

theorem Step.Encloses.midpoint_mem_uIoo (h : t.Encloses f a b) :
    t.midpoint ∈ Set.uIoo t.left t.right := by
  have hne : t.left ≠ t.right := by
    intro heq
    have hsign := h.sign
    rw [heq] at hsign
    exact (mul_self_nonneg _).not_gt hsign
  rw [h.midpoint]
  exact Roots.midpoint_mem_uIoo hne

theorem Step.Encloses.midpoint_mem (h : t.Encloses f a b) : t.midpoint ∈ Set.uIcc a b :=
  Set.uIcc_subset_uIcc h.left_mem h.right_mem (Set.Ioo_subset_Icc_self h.midpoint_mem_uIoo)

end Midpoint

variable [FloorRing K]

theorem Step.isDone_exact {tolerance : K} {t : Step K} :
    t.isDone tolerance = true ↔ |t.value| < tolerance ∨ |t.right-t.left|/2 < tolerance := by
  norm_num [isDone]

theorem Step.within_exact (f : K → K) (index : Nat) (left right : K) :
    within f index left right =
      ⟨index,left,right,(left+right)/2,f ((left+right)/2)⟩ := by
  norm_num [within]

theorem Step.encloses_first {f : K → K} {a b : K} (hf : f a*f b < 0) :
    (within f 1 a b).Encloses f a b := by
  rw [within_exact]
  exact ⟨Set.left_mem_uIcc,Set.right_mem_uIcc,hf,le_rfl,by simp,rfl,rfl⟩

theorem areEnds_exact_iff {f : K → K} {a b : K} : AreEnds f a b ↔ a ≠ b :=
  ⟨fun h => beq_eq_false_iff_ne.mp h.ne,
    fun hab => ⟨rfl,rfl,beq_eq_false_iff_ne.mpr hab,rfl,rfl⟩⟩

theorem isBracket_exact {f : K → K} {a b : K} (hab : a ≠ b) (hf : f a*f b < 0) :
    IsBracket f a b where
  toAreEnds := areEnds_exact_iff.mpr hab
  sign := by
    rw [zero_literal,not_le]
    exact hf

variable [IsStrictOrderedRing K]

theorem opposite_iff {v w : K} : Opposite v w ↔ v*w < 0 := by
  rw [Opposite,zero_literal,mul_neg_iff,or_comm]

namespace Step
variable {f : K → K} {a b tolerance : K} {t : Step K}

theorem value_exact_ne_zero (positive : 0 < tolerance) (hdone : t.isDone tolerance = false) :
    t.value ≠ 0 := by
  intro hzero
  have hsmall : |t.value| < tolerance := by rwa [hzero,abs_zero]
  rw [isDone_exact.mpr (.inl hsmall)] at hdone
  cases hdone

theorem Encloses.next (h : t.Encloses f a b) (positive : 0 < tolerance)
    (hdone : t.isDone tolerance = false) : (t.next f).Encloses f a b := by
  have hnonzero : f t.midpoint ≠ 0 := h.value ▸ value_exact_ne_zero positive hdone
  have hhalf := h.half_width
  unfold Step.next
  split
  · rename_i hsign
    rw [zero_literal,h.value] at hsign
    rw [within_exact]
    refine ⟨h.left_mem,h.midpoint_mem,hsign,Nat.le_add_left 1 _,?_,rfl,rfl⟩
    rw [h.midpoint,abs_midpoint_sub_left]
    exact hhalf
  · rename_i hsign
    rw [zero_literal,h.value] at hsign
    rw [within_exact]
    refine ⟨h.midpoint_mem,h.right_mem,(sign_iff h.sign hnonzero).mpr hsign,Nat.le_add_left 1 _,?_,
      rfl,rfl⟩
    rw [h.midpoint,abs_right_sub_midpoint]
    exact hhalf

end Step

/-- Bisection between two points where a function has opposite signs succeeds, whatever the
function is elsewhere. Every bracket on the way encloses a change of sign. Where the tolerance is
met, the root is good by its value or by its bracket, and it is met if enough steps are allowed. -/
theorem bisect_spec (f : K → K) {a b : K} (s : Settings K) (hab : a ≠ b)
    (positive : 0 < s.tolerance) (hmax : 1 ≤ s.maxIterations) (hf : f a*f b < 0) :
    ∃ r, bisect f a b s = .ok r ∧
      r.trace.map Step.index = List.range' 1 r.iterations ∧
      (∀ t ∈ r.trace, Opposite (f t.left) (f t.right) ∧
        |t.right-t.left| = |b-a|/2^(t.index-1) ∧
        t.left ∈ Set.uIcc a b ∧ t.right ∈ Set.uIcc a b ∧
        t.midpoint ∈ Set.uIoo t.left t.right) ∧
      (r.converged = true → |f r.root| < s.tolerance ∨
        ∃ t ∈ r.trace, r.root = (t.left+t.right)/2 ∧ |t.right-t.left|/2 < s.tolerance ∧
          Opposite (f t.left) (f t.right)) ∧
      (|b-a|/2^s.maxIterations < s.tolerance → r.converged = true) := by
  have hvalid : s.validate = .ok () := by
    rw [Settings.validate_eq_ok,zero_literal,not_le]
    exact ⟨rfl,positive,by omega⟩
  obtain ⟨last,hlast,hindex,heq⟩ := bisection_eq f a b hvalid
  have hr := bisect_eq hvalid (isBracket_exact hab hf)
  rw [heq] at hr
  have hall : ∀ t ∈ steps f a b s, t.Encloses f a b :=
    stepsFrom_keeps (fun t ht hdone => ht.next positive hdone) _ _ (Step.encloses_first hf)
  have hmem : last ∈ steps f a b s := List.mem_of_getLast? hlast
  have hencloses := hall last hmem
  refine ⟨_,hr,stepsFrom_index _ _,fun t ht => ?_,fun hconverged => ?_,fun hwidth => ?_⟩
  · have h := hall t ht
    exact ⟨opposite_iff.mpr h.sign,h.width,h.left_mem,h.right_mem,h.midpoint_mem_uIoo⟩
  · rcases Step.isDone_exact.mp hconverged with hvalue | hwidth
    · left
      rw [hencloses.value] at hvalue
      exact hvalue
    · right
      exact ⟨last,hmem,hencloses.midpoint,hwidth,opposite_iff.mpr hencloses.sign⟩
  · by_contra hnot
    have hdone : last.isDone s.tolerance = false := Bool.eq_false_of_not_eq_true hnot
    refine hnot (Step.isDone_exact.mpr (.inr ?_))
    rw [hencloses.half_width,hindex hdone]
    exact hwidth

/-- A jump is enclosed too, here from the right to the left. -/
theorem bisect_spec_jump :
    ∃ r, bisect (fun x : ℚ => if x < 1/3 then -1 else 1) 1 0 ⟨1/10,10⟩ = .ok r ∧
      ∃ t ∈ r.trace, r.root = (t.left+t.right)/2 ∧ |t.right-t.left|/2 < 1/10 ∧
        Opposite (if t.left < 1/3 then -1 else 1 : ℚ) (if t.right < 1/3 then -1 else 1) := by
  obtain ⟨r,hr,-,-,hroot,hconverged⟩ :=
    bisect_spec (fun x : ℚ => if x < 1/3 then -1 else 1) (a := 1) (b := 0) ⟨1/10,10⟩
      (by norm_num) (by norm_num) (by norm_num) (by norm_num)
  refine ⟨r,hr,?_⟩
  rcases hroot (hconverged (by norm_num)) with hvalue | hbracket
  · exfalso
    revert hvalue
    dsimp only
    split <;> norm_num
  · exact hbracket

end Roots
end NumericWorkbench
