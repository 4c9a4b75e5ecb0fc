import NumericWorkbench.Proofs.Roots.Order
/-! How far a scan over exact arithmetic goes. It stays in its interval, unless the number of cells is
rounded up to a whole number that is not larger than the quotient by more than `1e-9`. -/
namespace NumericWorkbench
namespace Roots
open Arithmetic Extended

namespace Scan
variable {α : Type} [Arithmetic α]

/-- The interval is a little short of a whole number of steps, which is the number of cells. -/
def RoundsUp (c : Scan α) (step : α) : Prop :=
  ∃ n : Nat, (c.stop-c.start)/step < ofNat n ∧ ofNat n ≤ (c.stop-c.start)/step+1e-9

/-- The numbers at which a step may look: from the start to the stop, and the same little further
where the number of cells is rounded up. -/
def Reaches (c : Scan α) (step x : α) : Prop :=
  c.start ≤ x ∧ (x ≤ c.stop ∨ c.RoundsUp step ∧ x ≤ c.stop+1e-9*step)

end Scan

variable {K : Type} [Field K] [LinearOrder K] [FloorRing K] [IsStrictOrderedRing K]
  {f g : Extended K → Extended K} {c : Scan (Extended K)} {step : Extended K} {a b h : K} {n : Nat}

namespace Scan

theorem Spaced.roundsUp_iff (spaced : c.Spaced step a b h n) :
    c.RoundsUp step ↔ b < a+n*h := by
  have hquotient : (c.stop-c.start)/step = real ((b-a)/h) := by
    rw [spaced.start,spaced.stop,spaced.spacing,real_sub,real_div _ spaced.positive.ne']
  rw [RoundsUp,hquotient,real_literal,real_add,← sub_lt_iff_lt_add',← div_lt_iff₀ spaced.positive]
  simp only [ofNat_real,real_lt,real_le]
  constructor
  · rintro ⟨m,hlt,hle⟩
    have hm : m < n+1 := by exact_mod_cast hle.trans_lt spaced.lt_count
    exact hlt.trans_le (Nat.cast_le.mpr (Nat.le_of_lt_succ hm))
  · exact fun hlt => ⟨n,hlt,spaced.count_le⟩

theorem Spaced.last_le (spaced : c.Spaced step a b h n) : a+n*h ≤ b+1e-9*h := by
  have hcount := mul_le_mul_of_nonneg_right spaced.count_le spaced.positive.le
  rw [add_mul,div_mul_cancel₀ _ spaced.positive.ne'] at hcount
  linarith

theorem Spaced.reaches (spaced : c.Spaced step a b h n) {y : K} (hstart : a ≤ y)
    (hlast : y ≤ a+n*h) : c.Reaches step (real y) := by
  have hreach := hlast.trans spaced.last_le
  rw [Reaches,spaced.roundsUp_iff,spaced.start,spaced.stop,spaced.spacing,real_literal,real_mul,
    real_add]
  simp only [real_le]
  rcases le_or_gt (a+n*h) b with hle | hgt
  · exact ⟨hstart,.inl (hlast.trans hle)⟩
  · exact ⟨hstart,.inr ⟨hgt,hreach⟩⟩

theorem Spaced.reaches_point (spaced : c.Spaced step a b h n) {x : Extended K}
    (hx : x ∈ c.grid step) : c.Reaches step x := by
  obtain ⟨i,hi,rfl⟩ := spaced.mem_grid.mp hx
  exact spaced.reaches (spaced.start_le i) (spaced.point_le hi)

theorem Spaced.reaches_inside (spaced : c.Spaced step a b h n) {i : Nat} (hi : i < n) {y : K}
    (hl : a+i*h ≤ y) (hr : y ≤ a+(i+1)*h) : c.Reaches step (real y) := by
  have hlast : a+(i+1)*h ≤ a+n*h := by exact_mod_cast spaced.point_le hi
  exact spaced.reaches ((spaced.start_le i).trans hl) (hr.trans hlast)

end Scan

namespace Scan.Valid

theorem reaches_root (valid : c.Valid) (hstep : step ∈ c.steps) {r : Root (Extended K)}
    (hr : r ∈ walk f c step (c.grid step)) : c.Reaches step r.x := by
  obtain ⟨a,b,h,n,spaced⟩ := valid.exists_spaced hstep
  rcases spaced.root_cases valid.settings hr with ⟨i,hi,-,rfl⟩ | ⟨i,m,hi,hl,hr,hx,-⟩
  · exact spaced.reaches (spaced.start_le i) (spaced.point_le hi)
  · exact hx ▸ spaced.reaches_inside hi hl.le hr.le

theorem walk_congr (valid : c.Valid) (hstep : step ∈ c.steps)
    (hagree : ∀ x, c.Reaches step x → f x = g x) :
    walk f c step (c.grid step) = walk g c step (c.grid step) := by
  obtain ⟨a,b,h,n,spaced⟩ := valid.exists_spaced hstep
  refine Roots.walk_congr _ (fun x hx => hagree x (spaced.reaches_point hx)) fun cell hcell => ?_
  obtain ⟨i,hi,rfl⟩ := spaced.mem_cells.mp hcell
  exact bisection_congr (fun x hl hr => hagree _ (spaced.reaches_inside hi hl hr)) valid.settings
    (spaced.point_lt_next i)

end Scan.Valid

/-- All points of a scan and all its roots are where its steps reach, and the function counts
nowhere else. A step goes beyond the stop exactly if its number of cells is rounded up. -/
theorem scanRoots_reach (f : Extended K → Extended K) (c : Scan (Extended K))
    (hvalidate : c.validate = .ok ()) :
    (∀ step ∈ c.steps, (∀ x ∈ c.grid step, c.Reaches step x) ∧
      ((∀ x ∈ c.grid step, x ≤ c.stop) ↔ ¬c.RoundsUp step)) ∧
    (∀ roots, scanRoots f c = .ok roots → ∀ r ∈ roots,
      r.step ∈ c.steps ∧ c.Reaches r.step r.x) ∧
    ∀ g : Extended K → Extended K, (∀ step ∈ c.steps, ∀ x, c.Reaches step x → f x = g x) →
      scanRoots f c = scanRoots g c := by
  have valid := Scan.validate_eq_ok.mp hvalidate
  refine ⟨fun step hstep => ?_,fun roots hroots r hr => ?_,fun g hagree => ?_⟩
  · obtain ⟨a,b,h,n,spaced⟩ := valid.exists_spaced hstep
    refine ⟨fun x => spaced.reaches_point,?_⟩
    rw [spaced.roundsUp_iff,not_lt]
    constructor
    · intro hall
      have hlast := hall _ (spaced.mem_grid.mpr ⟨n,le_rfl,rfl⟩)
      rwa [spaced.stop,real_le] at hlast
    · intro hle x hx
      obtain ⟨i,hi,rfl⟩ := spaced.mem_grid.mp hx
      rw [spaced.stop,real_le]
      exact (spaced.point_le hi).trans hle
  · obtain ⟨-,rfl | ⟨step,hstep,rfl⟩⟩ := scanRoots_eq_ok hroots
    · cases hr
    · rw [step_eq_of_mem_walk hr]
      exact ⟨hstep,valid.reaches_root hstep hr⟩
  · rw [scanRoots,scanRoots,hvalidate,ok_bind,ok_bind]
    refine firstFound_congr fun step hstep => ?_
    rw [valid.rootsAt_eq hstep,valid.rootsAt_eq hstep,valid.walk_congr hstep (hagree step hstep)]

theorem scanRoots_reach_half :
    let f : Extended ℚ → Extended ℚ := fun x => x*x-real 2
    let c : Scan (Extended ℚ) := ⟨real 0,real (5/2),[real 1],real (1/10),5,real (1/1000)⟩
    ∃ roots, scanRoots f c = .ok roots ∧ roots ≠ [] ∧
      ∀ r ∈ roots, c.start ≤ r.x ∧ r.x ≤ c.stop := by
  intro f c
  have hvalidate : c.validate = .ok () := by decide +kernel
  have hne : walk f c (real 1) (c.grid (real 1)) ≠ [] := by decide +kernel
  have hroots := (Scan.validate_eq_ok.mp hvalidate).scanRoots_eq_walk rfl hne
  obtain ⟨hgrid,hreach,-⟩ := scanRoots_reach f c hvalidate
  have hwhole : ¬c.RoundsUp (real 1) :=
    (hgrid (real 1) List.mem_cons_self).2.mp (by decide +kernel)
  refine ⟨_,hroots,hne,fun r hr => ?_⟩
  obtain ⟨hstep,hstart,hstop⟩ := hreach _ hroots r hr
  rw [List.mem_singleton.mp hstep] at hstop
  exact ⟨hstart,hstop.resolve_right fun hup => hwhole hup.1⟩

/-- The interval is short of one step by half of `1e-9`, and the root is at the end of that step. -/
theorem scanRoots_beyond :
    let f : Extended ℚ → Extended ℚ := fun x => x-real 1
    let c : Scan (Extended ℚ) :=
      ⟨real 0,real (1999999999/2000000000),[real 1],real (1/10),5,real (1/1000)⟩
    ∃ roots, scanRoots f c = .ok roots ∧ ∃ r ∈ roots, ¬r.x ≤ c.stop := by
  intro f c
  have valid : c.Valid := Scan.validate_eq_ok.mp (by decide +kernel)
  have hwalk : walk f c (real 1) (c.grid (real 1)) = [⟨real 1,real 0,real 1,.exact⟩] := by
    decide +kernel
  have hne : walk f c (real 1) (c.grid (real 1)) ≠ [] := by
    rw [hwalk]
    exact List.cons_ne_nil _ _
  have hroots := valid.scanRoots_eq_walk rfl hne
  exact ⟨_,hroots,⟨real 1,real 0,real 1,.exact⟩,by simp [hwalk],by decide +kernel⟩

end Roots
end NumericWorkbench
