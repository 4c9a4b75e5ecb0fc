import NumericWorkbench.Roots.Scan
import NumericWorkbench.Proofs.Roots.Ends
/-! A scan, in any arithmetic, as a walk along the grid that collects the roots of every point and
of every cell. It is the same as long as the cells that are searched are brackets. -/
namespace NumericWorkbench
namespace Roots
open Arithmetic
variable {α : Type} [Arithmetic α]

namespace Scan

/-- What the checks of a scan let through. -/
structure Valid (c : Scan α) : Prop where
  start : isFinite c.start = true
  stop : isFinite c.stop = true
  ascending : ¬c.stop ≤ c.start
  nonempty : c.steps ≠ []
  step : ∀ step ∈ c.steps, isFinite step = true ∧ ¬step ≤ 0.0
  cells : ∀ step ∈ c.steps, ¬1e7 < (c.stop-c.start)/step
  threshold : isFinite c.exactThreshold = true ∧ ¬c.exactThreshold < 0.0
  settings : c.settings.validate = .ok ()

theorem validate_eq_ok {c : Scan α} : c.validate = .ok () ↔ c.Valid := by
  constructor
  · intro h
    unfold validate at h
    dsimp only at h
    split at h
    · cases h
    rename_i hinterval
    split at h
    · cases h
    rename_i hsteps
    split at h
    · cases h
    rename_i hstep
    split at h
    · cases h
    rename_i hcells
    split at h
    · cases h
    rename_i hthreshold
    have hstep := List.find?_eq_none.mp (Option.eq_none_iff_forall_ne_some.mpr hstep)
    have hcells := List.find?_eq_none.mp (Option.eq_none_iff_forall_ne_some.mpr hcells)
    simp only [Bool.or_eq_true,Bool.not_eq_true',decide_eq_true_eq,not_or,Bool.not_eq_false]
      at hinterval hstep hcells hthreshold
    obtain ⟨⟨hstart,hstop⟩,hascending⟩ := hinterval
    exact ⟨hstart,hstop,hascending,by simpa using hsteps,hstep,hcells,hthreshold,h⟩
  · intro h
    have hstep : c.steps.find? (fun step => !isFinite step || step ≤ 0.0) = none := by
      rw [List.find?_eq_none]
      intro step hs
      simpa using h.step step hs
    have hcells : c.steps.find? (fun step => 1e7 < (c.stop-c.start)/step) = none := by
      rw [List.find?_eq_none]
      intro step hs
      simpa using h.cells step hs
    unfold validate
    simp [h.start,h.stop,h.ascending,h.nonempty,hstep,hcells,h.threshold,h.settings]

/-- Whether a cell is searched: it has finite values of opposite signs and no exact root. -/
def isSearched (c : Scan α) (f : α → α) (x y : α) : Bool :=
  !(!isFinite (f x) || !isFinite (f y) || c.isExact (f x) || c.isExact (f y) ||
    0.0 ≤ f x*f y)

end Scan

def Root.atPoint (f : α → α) (step x : α) : Root α := ⟨x,f x,step,.exact⟩

/-- The root that the search in a cell finds. -/
def Root.ofCell (step x y : α) (r : Bisection α) : Root α :=
  ⟨r.root,r.residual,step,.cell x y r.iterations r.converged⟩

variable (f : α → α) (c : Scan α) (step : α)

def pointRoots (x : α) : List (Root α) :=
  if c.isExact (f x) then [.atPoint f step x] else []

def cellRoots (x y : α) : List (Root α) :=
  if c.isSearched f x y then [.ofCell step x y (bisection f x y c.settings)] else []

def walk : List α → List (Root α)
  | [] => []
  | [x] => pointRoots f c step x
  | x::y::xs => pointRoots f c step x ++ cellRoots f c step x y ++ walk (y::xs)

def Scan.Bracketed (xs : List α) : Prop :=
  ∀ cell ∈ xs.zip xs.tail, c.isSearched f cell.1 cell.2 = true → IsBracket f cell.1 cell.2

variable {f c step}

theorem rootsFrom_cell (step : α) (valid : c.settings.validate = .ok ()) {x y : α}
    (h : c.isSearched f x y = true → IsBracket f x y) :
    rootsFrom f c step ((x,f x),some (y,f y)) =
      .ok (pointRoots f c step x ++ cellRoots f c step x y) := by
  unfold rootsFrom cellRoots
  cases hsearched : c.isSearched f x y with
  | false =>
    rw [Scan.isSearched,Bool.not_eq_false'] at hsearched
    simp only [hsearched]
    simp [pointRoots,Root.atPoint]
    rfl
  | true =>
    have hroot := bisect_eq valid (h hsearched)
    rw [Scan.isSearched,Bool.not_eq_true'] at hsearched
    simp only [hsearched,hroot]
    rfl

/-- The points with their values, each with its right neighbour. -/
def pairs (f : α → α) (xs : List α) : List ((α × α) × Option (α × α)) :=
  let samples := xs.map fun x => (x,f x)
  samples.zip (samples.tail.map some ++ [none])

theorem mapM_rootsFrom (step : α) (valid : c.settings.validate = .ok ()) (xs : List α)
    (h : c.Bracketed f xs) :
    ∃ found, (pairs f xs).mapM (rootsFrom f c step) = .ok found ∧
      found.flatten = walk f c step xs := by
  fun_induction walk f c step xs with
  | case1 => exact ⟨[],rfl,rfl⟩
  | case2 x => exact ⟨[pointRoots f c step x],rfl,by simp⟩
  | case3 x y xs ih =>
    obtain ⟨found,hfound,hwalk⟩ := ih fun cell hcell => h cell (List.mem_cons_of_mem _ hcell)
    have hcell := rootsFrom_cell step valid (h (x,y) List.mem_cons_self)
    have hpairs : pairs f (x::y::xs) = ((x,f x),some (y,f y))::pairs f (y::xs) := rfl
    refine ⟨(pointRoots f c step x ++ cellRoots f c step x y)::found,?_,by simp [hwalk]⟩
    rw [hpairs,List.mapM_cons,hcell,ok_bind,hfound]
    rfl

theorem rootsAt_eq_walk (valid : c.settings.validate = .ok ())
    (h : c.Bracketed f (c.grid step)) : rootsAt f c step = .ok (walk f c step (c.grid step)) := by
  obtain ⟨found,hfound,hwalk⟩ := mapM_rootsFrom step valid (c.grid step) h
  change ((pairs f (c.grid step)).mapM (rootsFrom f c step) >>= fun found => _) = _
  rw [hfound,ok_bind,← hwalk]
  rfl

theorem filter_points_cons (x : α) (xs : List α) :
    ((x::xs).filter fun x => c.isExact (f x)).map (Root.atPoint f step) =
      pointRoots f c step x ++
        (xs.filter fun x => c.isExact (f x)).map (Root.atPoint f step) := by
  rw [List.filter_cons,pointRoots]
  split <;> rfl

def rootsOfCells (f : α → α) (c : Scan α) (step : α) (cells : List (α × α)) : List (Root α) :=
  (cells.filter fun cell => c.isSearched f cell.1 cell.2).map fun cell =>
    .ofCell step cell.1 cell.2 (bisection f cell.1 cell.2 c.settings)

theorem rootsOfCells_cons (x y : α) (cells : List (α × α)) :
    rootsOfCells f c step ((x,y)::cells) =
      cellRoots f c step x y ++ rootsOfCells f c step cells := by
  rw [rootsOfCells,List.filter_cons,cellRoots]
  split <;> rfl

theorem walk_perm (xs : List α) :
    (walk f c step xs).Perm
      ((xs.filter fun x => c.isExact (f x)).map (Root.atPoint f step) ++
        rootsOfCells f c step (xs.zip xs.tail)) := by
  fun_induction walk f c step xs with
  | case1 => exact .refl []
  | case2 x =>
    rw [filter_points_cons]
    simp [rootsOfCells]
  | case3 x y xs ih =>
    rw [filter_points_cons,List.tail_cons,List.zip_cons_cons,rootsOfCells_cons,List.append_assoc,
      List.append_assoc]
    refine .append_left _ ?_
    exact (ih.append_left _).trans (List.perm_append_comm_assoc _ _ _)

theorem mem_walk {xs : List α} {r : Root α} : r ∈ walk f c step xs ↔
    (∃ x ∈ xs, c.isExact (f x) = true ∧ r = .atPoint f step x) ∨
    ∃ cell ∈ xs.zip xs.tail, c.isSearched f cell.1 cell.2 = true ∧
      r = .ofCell step cell.1 cell.2 (bisection f cell.1 cell.2 c.settings) := by
  rw [(walk_perm xs).mem_iff,rootsOfCells,List.mem_append,List.mem_map,List.mem_map]
  simp only [List.mem_filter,and_assoc,eq_comm (a := r)]

theorem step_eq_of_mem_walk {xs : List α} {r : Root α} (h : r ∈ walk f c step xs) :
    r.step = step := by
  rcases mem_walk.mp h with ⟨x,-,-,rfl⟩ | ⟨cell,-,-,rfl⟩ <;> rfl

theorem walk_congr {g : α → α} (xs : List α) (hpoints : ∀ x ∈ xs, f x = g x)
    (hcells : ∀ cell ∈ xs.zip xs.tail,
      bisection f cell.1 cell.2 c.settings = bisection g cell.1 cell.2 c.settings) :
    walk f c step xs = walk g c step xs := by
  have hpoint (x : α) (hx : f x = g x) : pointRoots f c step x = pointRoots g c step x := by
    rw [pointRoots,pointRoots,Root.atPoint,Root.atPoint,hx]
  fun_induction walk f c step xs with
  | case1 => rfl
  | case2 x => exact hpoint x (hpoints x (by simp))
  | case3 x y xs ih =>
    have hx := hpoints x (by simp)
    have hy := hpoints y (by simp)
    have hcell : cellRoots f c step x y = cellRoots g c step x y := by
      rw [cellRoots,cellRoots,Scan.isSearched,Scan.isSearched,hx,hy,hcells (x,y) (by simp)]
    rw [walk,hpoint x hx,hcell,ih (fun z hz => hpoints z (List.mem_cons_of_mem x hz))
      fun cell hcell => hcells cell (List.mem_cons_of_mem _ hcell)]

theorem firstFound_cons {steps : List α} {roots : List (Root α)}
    (h : rootsAt f c step = .ok roots) (hne : roots ≠ []) :
    firstFound f c (step::steps) = .ok (roots.mergeSort fun r s => precedes r.x s.x) := by
  rw [firstFound,h,ok_bind,if_neg (by simpa using hne)]
  rfl

/-- Of the steps that are tried, the first one with any roots gives the result. -/
theorem firstFound_spec (steps : List α)
    (h : ∀ step ∈ steps, rootsAt f c step = .ok (walk f c step (c.grid step))) :
    (firstFound f c steps = .ok [] ∧ ∀ step ∈ steps, walk f c step (c.grid step) = []) ∨
    ∃ before step after roots, steps = before ++ step::after ∧
      (∀ s ∈ before, walk f c s (c.grid s) = []) ∧
      firstFound f c steps = .ok roots ∧ roots ≠ [] ∧
      roots.Perm (walk f c step (c.grid step)) := by
  induction steps with
  | nil => exact .inl ⟨rfl,by simp⟩
  | cons step steps ih =>
    have hstep := h step (by simp)
    by_cases hwalk : walk f c step (c.grid step) = []
    · have hskip : firstFound f c (step::steps) = firstFound f c steps := by
        rw [firstFound,hstep,ok_bind,hwalk]
        rfl
      rw [hskip]
      rcases ih fun s hs => h s (List.mem_cons_of_mem _ hs) with
        ⟨hnone,hall⟩ | ⟨before,s,after,roots,rfl,hbefore,hroots⟩
      · exact .inl ⟨hnone,by simp [hwalk]; exact hall⟩
      · refine .inr ⟨step::before,s,after,roots,rfl,?_,hroots⟩
        rintro t ht
        rcases List.mem_cons.mp ht with rfl | ht
        · exact hwalk
        · exact hbefore t ht
    · have hperm := List.mergeSort_perm (walk f c step (c.grid step))
        fun r s => precedes r.x s.x
      refine .inr ⟨[],step,steps,_,rfl,by simp,firstFound_cons hstep hwalk,fun hnil => hwalk ?_,
        hperm⟩
      rw [hnil] at hperm
      exact hperm.symm.eq_nil

theorem firstFound_eq_ok {steps : List α} {roots : List (Root α)}
    (h : firstFound f c steps = .ok roots) : roots = [] ∨ ∃ step ∈ steps, ∃ found,
      rootsAt f c step = .ok found ∧ roots = found.mergeSort fun r s => precedes r.x s.x := by
  induction steps with
  | nil => exact .inl (Except.ok.inj h).symm
  | cons step steps ih =>
    obtain ⟨found,hfound,hroots⟩ := bind_eq_ok.mp h
    split at hroots
    · refine (ih hroots).imp_right ?_
      rintro ⟨s,hs,hrest⟩
      exact ⟨s,List.mem_cons_of_mem step hs,hrest⟩
    · exact .inr ⟨step,by simp,found,hfound,(Except.ok.inj hroots).symm⟩

theorem firstFound_congr {g : α → α} {steps : List α}
    (h : ∀ step ∈ steps, rootsAt f c step = rootsAt g c step) :
    firstFound f c steps = firstFound g c steps := by
  induction steps with
  | nil => rfl
  | cons step steps ih =>
    rw [firstFound,firstFound,h step (by simp),ih fun s hs => h s (List.mem_cons_of_mem step hs)]

end Roots
end NumericWorkbench
