import NumericWorkbench.Proofs.Extended
import NumericWorkbench.Proofs.Roots.Walk
/-! What a scan finds over exact arithmetic, where the function may have no finite value at some
points. -/
namespace NumericWorkbench
namespace Roots
open Arithmetic Extended

section AnyArithmetic
variable {α : Type}

def Root.isPoint (r : Root α) : Bool := r.origin matches .exact

theorem filter_isPoint (f : α → α) (step : α) (points : List α) (cells : List (α × α))
    (r : α × α → Bisection α) :
    let roots := points.map (Root.atPoint f step) ++
      cells.map fun cell => Root.ofCell step cell.1 cell.2 (r cell)
    roots.filter Root.isPoint = points.map (Root.atPoint f step) ∧
    roots.filter (fun r => !r.isPoint) =
      cells.map fun cell => Root.ofCell step cell.1 cell.2 (r cell) := by
  have hpoint (x : α) : (Root.atPoint f step x).isPoint = true := rfl
  have hcell (cell : α × α) : (Root.ofCell step cell.1 cell.2 (r cell)).isPoint = false := rfl
  simp [List.filter_map,Function.comp_def,hpoint,hcell]

variable [Arithmetic α]

/-- A step shows a root if its grid has a point with a value close to zero, or a cell with finite
values of strictly opposite signs. -/
def Scan.Detects (c : Scan α) (f : α → α) (step : α) : Prop :=
  (∃ x ∈ c.grid step, c.isExact (f x) = true) ∨
    ∃ cell ∈ (c.grid step).zip (c.grid step).tail,
      isFinite (f cell.1) = true ∧ isFinite (f cell.2) = true ∧ Opposite (f cell.1) (f cell.2)

/-- The changes of sign between points that are no roots themselves. -/
def Scan.innerChanges (c : Scan α) (f : α → α) (step : α) : List (α × α) :=
  (signChanges f c step).filter fun cell => !c.isExact (f cell.1) && !c.isExact (f cell.2)

/-- The root that belongs to a cell: it is what bisection of the cell gives. -/
def Root.Bisects (f : α → α) (c : Scan α) (step : α) (cell : α × α) (r : Root α) : Prop :=
  ∃ b, bisect f cell.1 cell.2 c.settings = .ok b ∧
    r = ⟨b.root,b.residual,step,.cell cell.1 cell.2 b.iterations b.converged⟩

/-- The roots that a step with any roots reports: every grid point with a value close to zero, and
for every change of sign between other points what bisection finds there, each of them once. -/
structure Scan.Reports (c : Scan α) (f : α → α) (step : α) (roots : List (Root α)) : Prop where
  same_step : ∀ r ∈ roots, r.step = step
  grid_nodup : (c.grid step).Nodup
  points : (roots.filter Root.isPoint).Perm
    (((c.grid step).filter fun x => c.isExact (f x)).map fun x => ⟨x,f x,step,.exact⟩)
  changes_nodup : (signChanges f c step).Nodup
  cells : ∃ found, (roots.filter fun r => !r.isPoint).Perm found ∧
    List.Forall₂ (Root.Bisects f c step) (c.innerChanges f step) found
  covered : ∀ cell ∈ signChanges f c step, (∃ r ∈ roots, r.Bisects f c step cell) ∨
    ∃ r ∈ roots, r.origin = .exact ∧ (r.x = cell.1 ∨ r.x = cell.2)

def changesSign (f : α → α) (cell : α × α) : Bool :=
  isFinite (f cell.1) && isFinite (f cell.2) && f cell.1*f cell.2 < 0.0

theorem signChanges_eq (f : α → α) (c : Scan α) (step : α) :
    signChanges f c step = ((c.grid step).zip (c.grid step).tail).filter (changesSign f) := by
  unfold signChanges Scan.samples
  simp only [← List.map_tail,List.zip_map,List.filter_map,List.map_map]
  exact List.map_id _

theorem mem_signChanges {f : α → α} {c : Scan α} {step : α} {cell : α × α} :
    cell ∈ signChanges f c step ↔
      cell ∈ (c.grid step).zip (c.grid step).tail ∧ changesSign f cell = true := by
  rw [signChanges_eq]
  exact List.mem_filter

theorem ends_mem_grid {c : Scan α} {step : α} {cell : α × α}
    (h : cell ∈ (c.grid step).zip (c.grid step).tail) :
    cell.1 ∈ c.grid step ∧ cell.2 ∈ c.grid step :=
  ⟨(List.of_mem_zip h).1,List.mem_of_mem_tail (List.of_mem_zip h).2⟩

end AnyArithmetic

variable {K : Type} [Field K] [LinearOrder K] [FloorRing K]

theorem zip_tail_range (n : Nat) :
    (List.range (n+1)).zip (List.range (n+1)).tail = (List.range n).map fun i => (i,i+1) := by
  apply List.ext_getElem
  · simp
  · intro i hi hi'
    simp [Nat.add_comm]

namespace Scan
variable {c : Scan (Extended K)} {step : Extended K}

theorem grid_real {a h : K} (ha : c.start = real a) (hh : step = real h) :
    ∃ n, c.grid step = (List.range (n+1)).map (fun i : Nat => real (a+i*h)) ∧
      (c.grid step).zip (c.grid step).tail =
        (List.range n).map fun i : Nat => (real (a+i*h),real (a+(i+1)*h)) := by
  have hgrid : c.grid step = (List.range (toCount ((c.stop-c.start)/step+1e-9)+1)).map
      (fun i : Nat => real (a+i*h)) := by
    rw [grid,ha,hh]
    exact List.map_congr_left fun i _ => by simp
  refine ⟨_,hgrid,?_⟩
  rw [hgrid,← List.map_tail,List.zip_map,zip_tail_range,List.map_map]
  exact List.map_congr_left fun i _ => by simp

theorem Valid.exists_start (h : c.Valid) : ∃ a, c.start = real a := isFinite_iff.mp h.start

theorem Valid.exists_step (h : c.Valid) (hstep : step ∈ c.steps) :
    ∃ x : K, 0 < x ∧ step = real x := by
  obtain ⟨hfinite,hpositive⟩ := h.step step hstep
  obtain ⟨x,rfl⟩ := isFinite_iff.mp hfinite
  rw [Extended.zero_literal,real_le,not_le] at hpositive
  exact ⟨x,hpositive,rfl⟩

end Scan

variable {f : Extended K → Extended K} {c : Scan (Extended K)} {step : Extended K}

theorem areEnds_real {x y : K} (hne : x ≠ y) (hx : isFinite (f (real x)) = true)
    (hy : isFinite (f (real y)) = true) : AreEnds f (real x) (real y) :=
  ⟨rfl,rfl,(real_beq x y).trans (decide_eq_false hne),hx,hy⟩

theorem isSearched_eq (cell : Extended K × Extended K) :
    c.isSearched f cell.1 cell.2 =
      ((!c.isExact (f cell.1) && !c.isExact (f cell.2)) && changesSign f cell) := by
  rw [Scan.isSearched,changesSign]
  cases hl : isFinite (f cell.1) with
  | false => simp
  | true =>
    cases hr : isFinite (f cell.2) with
    | false => simp
    | true => simp [Extended.nonneg_mul_iff hl hr,Bool.and_assoc]

theorem walk_grid_perm (f : Extended K → Extended K) (c : Scan (Extended K)) (step : Extended K) :
    (walk f c step (c.grid step)).Perm
      (((c.grid step).filter fun x => c.isExact (f x)).map (Root.atPoint f step) ++
        (c.innerChanges f step).map fun cell =>
          Root.ofCell step cell.1 cell.2 (bisection f cell.1 cell.2 c.settings)) := by
  have hperm : (walk f c step (c.grid step)).Perm _ := walk_perm (c.grid step)
  rw [rootsOfCells,funext isSearched_eq,← List.filter_filter] at hperm
  rw [Scan.innerChanges,signChanges_eq]
  exact hperm

variable [IsStrictOrderedRing K]

theorem opposite_real {v w : K} : Opposite (real v) (real w) ↔ v*w < 0 := by
  simp only [Opposite,Extended.zero_literal,real_lt]
  rw [mul_neg_iff,or_comm]

theorem changesSign_iff {cell : Extended K × Extended K} :
    changesSign f cell = true ↔
      isFinite (f cell.1) = true ∧ isFinite (f cell.2) = true ∧
        Opposite (f cell.1) (f cell.2) := by
  rw [changesSign,Bool.and_eq_true,Bool.and_eq_true,and_assoc,decide_eq_true_iff]
  refine and_congr_right fun hl => and_congr_right fun hr => ?_
  obtain ⟨v,hv⟩ := isFinite_iff.mp hl
  obtain ⟨w,hw⟩ := isFinite_iff.mp hr
  rw [hv,hw,opposite_real,real_mul,Extended.zero_literal,real_lt]

namespace Scan.Valid

theorem grid_nodup (h : c.Valid) (hstep : step ∈ c.steps) : (c.grid step).Nodup := by
  obtain ⟨a,ha⟩ := h.exists_start
  obtain ⟨x,hx,rfl⟩ := h.exists_step hstep
  obtain ⟨n,hgrid,-⟩ := grid_real ha rfl
  rw [hgrid]
  refine List.nodup_range.map fun i j hij => ?_
  have hmul : (i : K)*x = j*x := add_left_cancel (Extended.real.inj hij)
  exact Nat.cast_injective (mul_right_cancel₀ hx.ne' hmul)

theorem isBracket (h : c.Valid) (hstep : step ∈ c.steps) : c.Bracketed f (c.grid step) := by
  intro cell hcell hsearched
  obtain ⟨a,ha⟩ := h.exists_start
  obtain ⟨x,hx,rfl⟩ := h.exists_step hstep
  obtain ⟨n,-,hcells⟩ := grid_real ha rfl
  rw [hcells] at hcell
  obtain ⟨i,-,rfl⟩ := List.mem_map.mp hcell
  rw [isSearched_eq,changesSign] at hsearched
  simp only [Bool.and_eq_true,decide_eq_true_iff] at hsearched
  obtain ⟨-,⟨hl,hr⟩,hsign⟩ := hsearched
  have hne : a+i*x ≠ a+(i+1)*x := by
    intro heq
    linarith
  exact ⟨areEnds_real hne hl hr,fun hnonneg => (Extended.nonneg_mul_iff hl hr).mp hnonneg hsign⟩

theorem rootsAt_eq (h : c.Valid) (hstep : step ∈ c.steps) :
    rootsAt f c step = .ok (walk f c step (c.grid step)) :=
  rootsAt_eq_walk h.settings (h.isBracket hstep)

end Scan.Valid

theorem walk_eq_nil_iff : walk f c step (c.grid step) = [] ↔ ¬c.Detects f step := by
  have hperm := walk_grid_perm f c step
  have hnil : walk f c step (c.grid step) = [] ↔
      (∀ x ∈ c.grid step, c.isExact (f x) ≠ true) ∧ c.innerChanges f step = [] := by
    rw [← List.perm_nil,hperm.congr_left,List.perm_nil,List.append_eq_nil_iff,List.map_eq_nil_iff,
      List.map_eq_nil_iff,List.filter_eq_nil_iff]
  rw [hnil,Scan.Detects,not_or]
  refine ⟨fun ⟨hpoints,hchanges⟩ => ⟨by simpa using hpoints,?_⟩,
    fun ⟨hpoints,hcells⟩ => ⟨by simpa using hpoints,?_⟩⟩
  · rintro ⟨cell,hcell,hsign⟩
    obtain ⟨hl,hr⟩ := ends_mem_grid hcell
    have hinner : cell ∈ c.innerChanges f step := by
      refine List.mem_filter.mpr ⟨mem_signChanges.mpr ⟨hcell,changesSign_iff.mpr hsign⟩,?_⟩
      simp [hpoints _ hl,hpoints _ hr]
    rw [hchanges] at hinner
    cases hinner
  · refine List.eq_nil_iff_forall_not_mem.mpr fun cell hcell => hcells ?_
    obtain ⟨hmem,hsign⟩ := mem_signChanges.mp (List.mem_of_mem_filter hcell)
    exact ⟨cell,hmem,changesSign_iff.mp hsign⟩

theorem Scan.Valid.bisects (h : c.Valid) (hstep : step ∈ c.steps)
    {cell : Extended K × Extended K} (hcell : cell ∈ c.innerChanges f step) :
    (Root.ofCell step cell.1 cell.2 (bisection f cell.1 cell.2 c.settings)).Bisects f c step
      cell := by
  obtain ⟨hchange,hinner⟩ := List.mem_filter.mp hcell
  obtain ⟨hmem,hsign⟩ := mem_signChanges.mp hchange
  have hsearched : c.isSearched f cell.1 cell.2 = true := by
    rw [isSearched_eq,hinner,hsign]
    rfl
  exact ⟨_,bisect_eq h.settings (h.isBracket hstep cell hmem hsearched),rfl⟩

theorem Scan.Valid.signChanges_nodup (h : c.Valid) (hstep : step ∈ c.steps) :
    (signChanges f c step).Nodup := by
  have hzip : ((c.grid step).zip (c.grid step).tail).Nodup := by
    refine .of_map Prod.snd ?_
    rw [List.map_snd_zip (by simp)]
    exact (h.grid_nodup hstep).tail
  rw [signChanges_eq]
  exact hzip.filter _

theorem reports_of_perm (h : c.Valid) (hstep : step ∈ c.steps) {roots : List (Root (Extended K))}
    (hroots : roots.Perm (walk f c step (c.grid step))) : c.Reports f step roots := by
  have hperm := hroots.trans (walk_grid_perm f c step)
  obtain ⟨hpoints,hcells⟩ := filter_isPoint f step
    ((c.grid step).filter fun x => c.isExact (f x)) (c.innerChanges f step)
    fun cell => bisection f cell.1 cell.2 c.settings
  refine ⟨fun r hr => ?_,h.grid_nodup hstep,?_,h.signChanges_nodup hstep,?_,fun cell hcell => ?_⟩
  · rcases List.mem_append.mp (hperm.mem_iff.mp hr) with hr | hr
    · obtain ⟨x,-,rfl⟩ := List.mem_map.mp hr
      rfl
    · obtain ⟨cell,-,rfl⟩ := List.mem_map.mp hr
      rfl
  · have hfilter := hperm.filter Root.isPoint
    rw [hpoints] at hfilter
    exact hfilter
  · have hfilter := hperm.filter fun r => !r.isPoint
    rw [hcells] at hfilter
    refine ⟨_,hfilter,List.forall₂_map_right_iff.mpr (List.forall₂_same.mpr fun cell hcell => ?_)⟩
    exact h.bisects hstep hcell
  · have hpoint (x : Extended K) (hx : x ∈ c.grid step) (hexact : c.isExact (f x) = true) :
        Root.atPoint f step x ∈ roots :=
      hperm.mem_iff.mpr (List.mem_append_left _
        (List.mem_map_of_mem (List.mem_filter.mpr ⟨hx,hexact⟩)))
    obtain ⟨hl,hr⟩ := ends_mem_grid (mem_signChanges.mp hcell).1
    by_cases hleft : c.isExact (f cell.1) = true
    · exact .inr ⟨_,hpoint _ hl hleft,rfl,.inl rfl⟩
    by_cases hright : c.isExact (f cell.2) = true
    · exact .inr ⟨_,hpoint _ hr hright,rfl,.inr rfl⟩
    have hinner : cell ∈ c.innerChanges f step :=
      List.mem_filter.mpr ⟨hcell,by simp [hleft,hright]⟩
    have hmem := List.mem_append_right
      (((c.grid step).filter fun x => c.isExact (f x)).map (Root.atPoint f step))
      (List.mem_map_of_mem (f := fun cell : Extended K × Extended K =>
        Root.ofCell step cell.1 cell.2 (bisection f cell.1 cell.2 c.settings)) hinner)
    exact .inl ⟨_,hperm.mem_iff.mpr hmem,h.bisects hstep hinner⟩

/-- A scan succeeds exactly if its settings pass the check. The first step that shows a root, if
there is one, gives all roots, and they are those that its grid shows. -/
theorem scanRoots_spec (f : Extended K → Extended K) (c : Scan (Extended K)) :
    ((∃ roots, scanRoots f c = .ok roots) ↔ c.validate = .ok ()) ∧
    (∀ roots, scanRoots f c = .ok roots → roots ≠ [] →
      ∃ before step after, c.steps = before ++ step::after ∧
        (∀ s ∈ before, ¬c.Detects f s) ∧ c.Detects f step ∧ c.Reports f step roots) ∧
    (scanRoots f c = .ok [] ↔ c.validate = .ok () ∧ ∀ step ∈ c.steps, ¬c.Detects f step) := by
  by_cases hvalid : c.validate = .ok ()
  · have h := Scan.validate_eq_ok.mp hvalid
    have hscan : scanRoots f c = firstFound f c c.steps := by rw [scanRoots,hvalid,ok_bind]
    have hfirst := firstFound_spec (f := f) (c := c) c.steps fun step hstep => h.rootsAt_eq hstep
    simp only [hscan,hvalid,walk_eq_nil_iff,true_and,iff_true] at hfirst ⊢
    rcases hfirst with ⟨hnone,hall⟩ | ⟨before,step,after,roots,hsteps,hbefore,hroots,hne,hperm⟩
    · refine ⟨⟨[],hnone⟩,fun roots hroots hne => ?_,⟨fun _ => hall,fun _ => hnone⟩⟩
      rw [hnone,Except.ok.injEq] at hroots
      exact absurd hroots.symm hne
    · have hstep : step ∈ c.steps := by simp [hsteps]
      have hdetects : c.Detects f step := by
        by_contra hnot
        rw [walk_eq_nil_iff.mpr hnot] at hperm
        exact hne hperm.eq_nil
      refine ⟨⟨roots,hroots⟩,fun roots' hroots' _ => ?_,fun hnil => ?_,fun hnone => ?_⟩
      · obtain rfl : roots = roots' := Except.ok.inj (hroots.symm.trans hroots')
        exact ⟨before,step,after,hsteps,hbefore,hdetects,reports_of_perm h hstep hperm⟩
      · exact absurd (Except.ok.inj (hroots.symm.trans hnil)) hne
      · exact absurd hdetects (hnone step hstep)
  · have hrefused : ∀ roots, scanRoots f c ≠ .ok roots := by
      intro roots hroots
      obtain ⟨⟨⟩,hunit,-⟩ := bind_eq_ok.mp hroots
      exact hvalid hunit
    exact ⟨⟨fun ⟨roots,hroots⟩ => absurd hroots (hrefused roots),fun h => absurd h hvalid⟩,
      fun roots hroots => absurd hroots (hrefused roots),
      fun hroots => absurd hroots (hrefused []),fun h => absurd h.1 hvalid⟩

/-- The function has no value at `-1` and is zero at `0`. The first step sees neither of its roots
nor a change of sign. -/
theorem scanRoots_spec_hole :
    let f : Extended ℚ → Extended ℚ := fun x =>
      if x = real (-1) then undefined else x*x*x-real 2*x
    let c : Scan (Extended ℚ) := ⟨real (-2),real 2,[real 3,real 1],real (1/10),5,real (1/1000)⟩
    ∃ roots, scanRoots f c = .ok roots ∧ roots ≠ [] ∧ c.Reports f (real 1) roots := by
  intro f c
  obtain ⟨hok,hreports,hempty⟩ := scanRoots_spec f c
  have hcoarse : ¬c.Detects f (real 3) := walk_eq_nil_iff.mp (by decide +kernel)
  have hgrid : c.grid (real 1) = [real (-2),real (-1),real 0,real 1,real 2] := by decide +kernel
  have hfine : c.Detects f (real 1) := .inl ⟨real 0,by simp [hgrid],by decide +kernel⟩
  obtain ⟨roots,hroots⟩ := hok.mpr (by decide +kernel)
  have hne : roots ≠ [] := by
    rintro rfl
    exact (hempty.mp hroots).2 (real 1) (by simp [c]) hfine
  obtain ⟨before,step,after,hsteps,-,hdetects,hr⟩ := hreports roots hroots hne
  have hstep : step ∈ [(real 3 : Extended ℚ),real 1] := by
    change step ∈ c.steps
    simp [hsteps]
  rcases List.mem_pair.mp hstep with rfl | rfl
  · exact absurd hdetects hcoarse
  · exact ⟨roots,hroots,hne,hr⟩

end Roots
end NumericWorkbench
