import NumericWorkbench.Proofs.Roots.Spacing
/-! The order of the roots that a scan finds over exact arithmetic. The walk along the grid comes
across them in ascending order, so the sort at its end changes nothing. -/
namespace NumericWorkbench
namespace Roots
open Arithmetic Extended

section AnyArithmetic
variable {α : Type}

/-- The left end of the cell of a root. A grid point is a cell of its own. -/
def Root.left (r : Root α) : α :=
  match r.origin with
  | .exact => r.x
  | .cell left _ _ _ => left

def Root.right (r : Root α) : α :=
  match r.origin with
  | .exact => r.x
  | .cell _ right _ _ => right

/-- A root is smaller than another, and so is its cell. The cells may have an end in common. -/
def Root.Before [Arithmetic α] (r s : Root α) : Prop := r.x < s.x ∧ r.right ≤ s.left

end AnyArithmetic

variable {K : Type} [LinearOrder K]

def Root.EndsBy (y : K) (r : Root (Extended K)) : Prop :=
  ∃ m u, r.x = real m ∧ r.right = real u ∧ m < y ∧ u ≤ y

def Root.StartsFrom (y : K) (r : Root (Extended K)) : Prop :=
  ∃ l m, r.left = real l ∧ r.x = real m ∧ y ≤ l ∧ l ≤ m

theorem Root.StartsFrom.mono {x y : K} {r : Root (Extended K)} (h : r.StartsFrom y)
    (hxy : x ≤ y) : r.StartsFrom x := by
  obtain ⟨l,m,hleft,hx,hyl,hlm⟩ := h
  exact ⟨l,m,hleft,hx,hxy.trans hyl,hlm⟩

variable [Field K] [FloorRing K]

theorem Root.EndsBy.before {y : K} {r s : Root (Extended K)} (hr : r.EndsBy y)
    (hs : s.StartsFrom y) : r.Before s := by
  obtain ⟨m,u,hx,hright,hm,hu⟩ := hr
  obtain ⟨l,m',hleft,hx',hl,hlm⟩ := hs
  rw [Root.Before,hx,hx',hright,hleft,real_lt,real_le]
  exact ⟨hm.trans_le (hl.trans hlm),hu.trans hl⟩

variable [IsStrictOrderedRing K] {f : Extended K → Extended K} {c : Scan (Extended K)}
  {step : Extended K}

theorem ascending_first (f : Extended K → Extended K) (step : Extended K)
    (valid : c.settings.validate = .ok ()) {x y : K} (hxy : x < y) :
    let first := pointRoots f c step (real x) ++ cellRoots f c step (real x) (real y)
    first.Pairwise Root.Before ∧ ∀ r ∈ first, r.StartsFrom x ∧ r.EndsBy y := by
  obtain ⟨m,hxm,hmy,hroot⟩ := exists_root_inside (f := f) valid hxy
  let point := Root.atPoint f step (real x)
  let cell := Root.ofCell step (real x) (real y) (bisection f (real x) (real y) c.settings)
  have hpoint : point.StartsFrom x ∧ point.EndsBy y :=
    ⟨⟨x,x,rfl,rfl,le_rfl,le_rfl⟩,x,x,rfl,rfl,hxy,hxy.le⟩
  have hcell : cell.StartsFrom x ∧ cell.EndsBy y :=
    ⟨⟨x,m,rfl,hroot,le_rfl,hxm.le⟩,m,y,hroot,rfl,hmy,le_rfl⟩
  have hbefore : point.Before cell := by
    refine ⟨?_,(real_le x x).mpr le_rfl⟩
    change real x < (bisection f (real x) (real y) c.settings).root
    rw [hroot]
    exact (real_lt x m).mpr hxm
  unfold pointRoots cellRoots
  split <;> split <;> simp [point,cell,hpoint,hcell,hbefore]

theorem walk_ascending (valid : c.settings.validate = .ok ()) (points : List K)
    (h : points.IsChain (· < ·)) :
    (walk f c step (points.map real)).Pairwise Root.Before ∧
      ∀ x ∈ points.head?, ∀ r ∈ walk f c step (points.map real), r.StartsFrom x := by
  induction points with
  | nil => exact ⟨List.Pairwise.nil,nofun⟩
  | cons x points ih =>
    cases points with
    | nil =>
      have hstart : (Root.atPoint f step (real x)).StartsFrom x := ⟨x,x,rfl,rfl,le_rfl,le_rfl⟩
      rw [List.map_singleton,walk,pointRoots]
      split <;> simp [hstart]
    | cons y points =>
      obtain ⟨hxy,hrest⟩ := List.isChain_cons_cons.mp h
      obtain ⟨hpairs,hstart⟩ := ih hrest
      obtain ⟨hfirst,hbounds⟩ := ascending_first f step valid hxy
      have hstart := hstart y rfl
      refine ⟨List.pairwise_append.mpr ⟨hfirst,hpairs,fun r hr s hs => ?_⟩,?_⟩
      · exact (hbounds r hr).2.before (hstart s hs)
      · rintro _ ⟨⟩ r hr
        rcases List.mem_append.mp hr with hr | hr
        · exact (hbounds r hr).1
        · exact (hstart r hr).mono hxy.le

theorem Scan.Valid.walk_ascending (valid : c.Valid) (hstep : step ∈ c.steps) :
    (walk f c step (c.grid step)).Pairwise Root.Before := by
  obtain ⟨a,b,h,n,spaced⟩ := valid.exists_spaced hstep
  let point (i : Nat) : K := a+i*h
  have hchain : ((List.range (n+1)).map point).IsChain (· < ·) :=
    (List.pairwise_lt_range.map point fun _ _ => spaced.point_lt).isChain
  have hgrid : c.grid step = ((List.range (n+1)).map point).map real := by
    rw [spaced.points,List.map_map]
    rfl
  rw [hgrid]
  exact (Roots.walk_ascending valid.settings _ hchain).1

theorem Scan.Valid.mergeSort_walk (valid : c.Valid) (hstep : step ∈ c.steps) :
    (walk f c step (c.grid step)).mergeSort (fun r s => precedes r.x s.x) =
      walk f c step (c.grid step) := by
  refine List.mergeSort_of_pairwise ?_
  exact (valid.walk_ascending hstep).imp fun hbefore => precedes_of_lt hbefore.1

theorem Scan.Valid.scanRoots_eq_walk (valid : c.Valid) {rest : List (Extended K)}
    (hsteps : c.steps = step::rest) (hne : walk f c step (c.grid step) ≠ []) :
    scanRoots f c = .ok (walk f c step (c.grid step)) := by
  have hstep : step ∈ c.steps := by simp [hsteps]
  rw [scanRoots,Scan.validate_eq_ok.mpr valid,ok_bind,hsteps,
    firstFound_cons (valid.rootsAt_eq hstep) hne,valid.mergeSort_walk hstep]

theorem scanRoots_eq_ok {roots : List (Root (Extended K))} (h : scanRoots f c = .ok roots) :
    c.Valid ∧ (roots = [] ∨ ∃ step ∈ c.steps, roots = walk f c step (c.grid step)) := by
  obtain ⟨⟨⟩,hvalidate,hfound⟩ := bind_eq_ok.mp h
  have valid := Scan.validate_eq_ok.mp hvalidate
  refine ⟨valid,(firstFound_eq_ok hfound).imp_right ?_⟩
  rintro ⟨step,hstep,found,hrootsAt,rfl⟩
  rw [valid.rootsAt_eq hstep,Except.ok.injEq] at hrootsAt
  subst hrootsAt
  exact ⟨step,hstep,valid.mergeSort_walk hstep⟩

/-- Roots in ascending order, as a step found them, each of them in a cell as wide as the step or at
a grid point of its own. -/
structure Scan.Lists (c : Scan (Extended K)) (f : Extended K → Extended K) (step : Extended K)
    (roots : List (Root (Extended K))) : Prop where
  found : rootsAt f c step = .ok roots
  ascending : roots.Pairwise fun r s => r.x < s.x
  apart : roots.Pairwise fun r s => r.right ≤ s.left
  inside : ∀ r ∈ roots, ∀ left right iterations converged,
    r.origin = .cell left right iterations converged →
      left < r.x ∧ r.x < right ∧ right-left = step

/-- The roots of a scan ascend strictly, and their cells overlap at most in an end. The sort changes
nothing. -/
theorem scanRoots_ascending (f : Extended K → Extended K) (c : Scan (Extended K))
    (roots : List (Root (Extended K))) (h : scanRoots f c = .ok roots) :
    roots = [] ∨ ∃ step ∈ c.steps, c.Lists f step roots := by
  obtain ⟨valid,hroots⟩ := scanRoots_eq_ok h
  refine hroots.imp_right ?_
  rintro ⟨step,hstep,rfl⟩
  have hascending := valid.walk_ascending (f := f) hstep
  refine ⟨step,hstep,valid.rootsAt_eq hstep,hascending.imp And.left,hascending.imp And.right,?_⟩
  intro r hr left right iterations converged horigin
  obtain ⟨a,b,h,n,spaced⟩ := valid.exists_spaced hstep
  rcases spaced.root_cases valid.settings hr with
    ⟨i,-,-,rfl⟩ | ⟨i,m,-,hleft,hright,hx,iterations',converged',hcell⟩
  · cases horigin
  · obtain ⟨rfl,rfl,-,-⟩ := Origin.cell.inj (hcell.symm.trans horigin)
    have hwidth : a+(i+1)*h-(a+i*h) = h := by ring
    rw [hx,real_lt,real_lt,real_sub,hwidth,spaced.spacing]
    exact ⟨hleft,hright,rfl⟩

theorem scanRoots_ascending_hole :
    let f : Extended ℚ → Extended ℚ := fun x =>
      if x = real (3/2) then undefined else x*x*x-real 2*x
    let c : Scan (Extended ℚ) := ⟨real (-2),real 2,[real 1],real (1/10),5,real (1/1000)⟩
    ∃ roots, scanRoots f c = .ok roots ∧ roots.map Root.isPoint = [false,true,false] ∧
      c.Lists f (real 1) roots := by
  intro f c
  have hpoints : (walk f c (real 1) (c.grid (real 1))).map Root.isPoint = [false,true,false] := by
    decide +kernel
  have hne : walk f c (real 1) (c.grid (real 1)) ≠ [] := by
    intro hnil
    rw [hnil] at hpoints
    cases hpoints
  have valid : c.Valid := Scan.validate_eq_ok.mp (by decide +kernel)
  have hroots := valid.scanRoots_eq_walk rfl hne
  obtain ⟨step,hstep,hlists⟩ := (scanRoots_ascending f c _ hroots).resolve_left hne
  obtain rfl := List.mem_singleton.mp hstep
  exact ⟨_,hroots,hpoints,hlists⟩

end Roots
end NumericWorkbench
