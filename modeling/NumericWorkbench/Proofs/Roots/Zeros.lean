import NumericWorkbench.Proofs.Roots.Order
/-! Zeros on the grid of a scan over exact arithmetic. A positive threshold finds them all; below a
threshold of zero no value counts as close to zero, and none of them is found. -/
namespace NumericWorkbench
namespace Roots
open Arithmetic Extended
variable {K : Type} [Field K] [LinearOrder K] [FloorRing K] [IsStrictOrderedRing K]
  {c : Scan (Extended K)} {step x : Extended K}

namespace Scan

theorem isExact_zero : c.isExact (real 0) = true ↔ real 0 < c.exactThreshold := by
  have hmagnitude : Arithmetic.magnitude (real (0 : K)) = real 0 := congrArg real abs_zero
  rw [isExact,decide_eq_true_iff,hmagnitude]

theorem Valid.isExact_eq_false (valid : c.Valid) (h : ¬real 0 < c.exactThreshold)
    (v : Extended K) : c.isExact v = false := by
  obtain ⟨t,ht⟩ := isFinite_iff.mp valid.threshold.1
  rw [ht,real_lt,not_lt] at h
  rw [isExact,decide_eq_false_iff_not,ht]
  cases v with
  | real x =>
    change ¬real |x| < real t
    rw [real_lt,not_lt]
    exact h.trans (abs_nonneg x)
  | infinite s => exact Bool.false_ne_true
  | undefined => exact Bool.false_ne_true

theorem Spaced.notMem_between {a b h m : K} {n i : Nat} (spaced : c.Spaced step a b h n)
    (hl : a+i*h < m) (hr : m < a+(i+1)*h) : real m ∉ c.grid step := by
  intro hm
  obtain ⟨j,-,heq⟩ := spaced.mem_grid.mp hm
  obtain rfl := Extended.real.inj heq
  have hij : i < j := not_le.mp fun hle => (spaced.point_le hle).not_gt hl
  have hji : j < i+1 := not_le.mp fun hle => (spaced.point_le hle).not_gt (by exact_mod_cast hr)
  omega

theorem Valid.isExact_of_mem_grid {f : Extended K → Extended K} (valid : c.Valid)
    (hstep : step ∈ c.steps) {r : Root (Extended K)} (hr : r ∈ walk f c step (c.grid step))
    (hx : r.x ∈ c.grid step) : c.isExact (f r.x) = true := by
  obtain ⟨a,b,h,n,spaced⟩ := valid.exists_spaced hstep
  rcases spaced.root_cases valid.settings hr with ⟨i,-,hexact,rfl⟩ | ⟨i,m,-,hl,hr,heq,-⟩
  · exact hexact
  · rw [heq] at hx
    exact absurd hx (spaced.notMem_between hl hr)

end Scan

/-- A zero at a grid point of the first step is among the roots, and all of them come from that step,
if the threshold is positive. Otherwise the step does not find the zero. -/
theorem scanRoots_zero (f : Extended K → Extended K) (c : Scan (Extended K)) (step : Extended K)
    (rest : List (Extended K)) (x : Extended K) (hvalidate : c.validate = .ok ())
    (hsteps : c.steps = step::rest) (hx : x ∈ c.grid step) (hzero : f x = real 0) :
    (real 0 < c.exactThreshold → ∃ roots, scanRoots f c = .ok roots ∧
      (∀ r ∈ roots, r.step = step) ∧ ⟨x,real 0,step,.exact⟩ ∈ roots) ∧
    (¬real 0 < c.exactThreshold → ∀ roots, scanRoots f c = .ok roots →
      ∀ r ∈ roots, r.step = step → r.x ≠ x) := by
  have valid := Scan.validate_eq_ok.mp hvalidate
  refine ⟨fun hpositive => ?_,fun hnot roots hroots r hr hrstep heq => ?_⟩
  · have hexact : c.isExact (f x) = true := hzero ▸ Scan.isExact_zero.mpr hpositive
    have hmem : (Root.atPoint f step x) ∈ walk f c step (c.grid step) :=
      mem_walk.mpr (.inl ⟨x,hx,hexact,rfl⟩)
    have hroots := valid.scanRoots_eq_walk hsteps (List.ne_nil_of_mem hmem)
    rw [Root.atPoint,hzero] at hmem
    exact ⟨_,hroots,fun r => step_eq_of_mem_walk,hmem⟩
  · obtain ⟨-,rfl | ⟨step',hstep,rfl⟩⟩ := scanRoots_eq_ok hroots
    · cases hr
    · obtain rfl : step' = step := (step_eq_of_mem_walk hr).symm.trans hrstep
      have hpoint := valid.isExact_of_mem_grid hstep hr (heq ▸ hx)
      rw [valid.isExact_eq_false hnot] at hpoint
      cases hpoint

theorem scanRoots_zero_middle :
    let f : Extended ℚ → Extended ℚ := fun x => x*x*x-real 2*x
    let c : Scan (Extended ℚ) := ⟨real (-2),real 2,[real 1],real (1/10),5,real (1/1000)⟩
    ∃ roots, scanRoots f c = .ok roots ∧ (∀ r ∈ roots, r.step = real 1) ∧
      ⟨real 0,real 0,real 1,.exact⟩ ∈ roots := by
  intro f c
  have hgrid : c.grid (real 1) = [real (-2),real (-1),real 0,real 1,real 2] := by decide +kernel
  obtain ⟨hfound,-⟩ := scanRoots_zero f c (real 1) [] (real 0) (by decide +kernel) rfl
    (by simp [hgrid]) (by decide +kernel)
  exact hfound (by decide +kernel)

/-- At the threshold zero, not even a value of zero counts as close to it. -/
theorem scanRoots_misses :
    let f : Extended ℚ → Extended ℚ := fun x => x
    let c : Scan (Extended ℚ) := ⟨real (-1),real 1,[real 1],real (1/10),5,real 0⟩
    c.validate = .ok () ∧ real 0 ∈ c.grid (real 1) ∧ f (real 0) = real 0 ∧
      scanRoots f c = .ok [] := by
  intro f c
  have hgrid : c.grid (real 1) = [real (-1),real 0,real 1] := by decide +kernel
  exact ⟨by decide +kernel,by simp [hgrid],rfl,by decide +kernel⟩

end Roots
end NumericWorkbench
