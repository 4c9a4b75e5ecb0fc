import NumericWorkbench.Proofs.Roots.Interior
import NumericWorkbench.Proofs.Roots.Scan
/-! The grid of a scan over exact arithmetic: evenly spaced points, as many as fit into the interval
after their number has been rounded. -/
namespace NumericWorkbench
namespace Roots
open Arithmetic Extended
variable {K : Type} [Field K] [LinearOrder K] [FloorRing K]

namespace Scan
variable {c : Scan (Extended K)} {step : Extended K}

/-- The points of a grid from `a` on in the distance `h`, with `n` cells between them. The number of
cells is the whole part of the quotient and a little more. -/
structure Spaced (c : Scan (Extended K)) (step : Extended K) (a b h : K) (n : Nat) : Prop where
  start : c.start = real a
  stop : c.stop = real b
  spacing : step = real h
  ascending : a < b
  positive : 0 < h
  points : c.grid step = (List.range (n+1)).map fun i : Nat => real (a+i*h)
  cells : (c.grid step).zip (c.grid step).tail =
    (List.range n).map fun i : Nat => (real (a+i*h),real (a+(i+1)*h))
  count_le : n ≤ (b-a)/h+1e-9
  lt_count : (b-a)/h+1e-9 < n+1

section Members
variable {a b h : K} {n : Nat}

theorem Spaced.mem_grid (spaced : c.Spaced step a b h n) {x : Extended K} :
    x ∈ c.grid step ↔ ∃ i : Nat, i ≤ n ∧ x = real (a+i*h) := by
  rw [spaced.points,List.mem_map]
  simp only [List.mem_range,Nat.lt_succ_iff,eq_comm]

theorem Spaced.mem_cells (spaced : c.Spaced step a b h n) {cell : Extended K × Extended K} :
    cell ∈ (c.grid step).zip (c.grid step).tail ↔
      ∃ i : Nat, i < n ∧ cell = (real (a+i*h),real (a+(i+1)*h)) := by
  rw [spaced.cells,List.mem_map]
  simp only [List.mem_range,eq_comm]

end Members

variable [IsStrictOrderedRing K]

section Points
variable {a b h : K} {n : Nat}

theorem Spaced.point_lt (spaced : c.Spaced step a b h n) {i j : Nat} (hij : i < j) :
    a+i*h < a+j*h :=
  add_lt_add_right (mul_lt_mul_of_pos_right (Nat.cast_lt.mpr hij) spaced.positive) a

theorem Spaced.point_lt_next (spaced : c.Spaced step a b h n) (i : Nat) :
    a+i*h < a+(i+1)*h := by
  exact_mod_cast spaced.point_lt (Nat.lt_succ_self i)

theorem Spaced.point_le (spaced : c.Spaced step a b h n) {i j : Nat} (hij : i ≤ j) :
    a+i*h ≤ a+j*h :=
  add_le_add_right (mul_le_mul_of_nonneg_right (Nat.cast_le.mpr hij) spaced.positive.le) a

theorem Spaced.start_le (spaced : c.Spaced step a b h n) (i : Nat) : a ≤ a+i*h :=
  le_add_of_nonneg_right (mul_nonneg (Nat.cast_nonneg i) spaced.positive.le)

theorem Spaced.root_cases (spaced : c.Spaced step a b h n)
    (valid : c.settings.validate = .ok ()) {f : Extended K → Extended K} {r : Root (Extended K)}
    (hr : r ∈ walk f c step (c.grid step)) :
    (∃ i : Nat, i ≤ n ∧ c.isExact (f (real (a+i*h))) = true ∧
      r = .atPoint f step (real (a+i*h))) ∨
    ∃ (i : Nat) (m : K), i < n ∧ a+i*h < m ∧ m < a+(i+1)*h ∧ r.x = real m ∧
      ∃ iterations converged,
        r.origin = .cell (real (a+i*h)) (real (a+(i+1)*h)) iterations converged := by
  rcases mem_walk.mp hr with ⟨x,hx,hexact,rfl⟩ | ⟨cell,hcell,-,rfl⟩
  · obtain ⟨i,hi,rfl⟩ := spaced.mem_grid.mp hx
    exact .inl ⟨i,hi,hexact,rfl⟩
  · obtain ⟨i,hi,rfl⟩ := spaced.mem_cells.mp hcell
    obtain ⟨m,hl,hr,hroot⟩ := exists_root_inside (f := f) valid (spaced.point_lt_next i)
    exact .inr ⟨i,m,hi,hl,hr,hroot,_,_,rfl⟩

end Points

theorem toCount_bounds {q : K} (hnonneg : 0 ≤ q) (hle : q ≤ 1e7) :
    ((toCount (real (q+1e-9)) : Nat) : K) ≤ q+1e-9 ∧
      q+1e-9 < (toCount (real (q+1e-9)) : Nat)+1 := by
  have hpositive : 0 ≤ q+1e-9 := by positivity
  have hlt : ⌊q+1e-9⌋₊ < 2^64 := by
    rw [Nat.floor_lt hpositive]
    norm_num at hle ⊢
    linarith
  rw [toCount_real,Int.floor_toNat,Nat.min_eq_left (by omega)]
  exact ⟨Nat.floor_le hpositive,Nat.lt_floor_add_one _⟩

theorem Valid.exists_spaced (valid : c.Valid) (hstep : step ∈ c.steps) :
    ∃ a b h n, c.Spaced step a b h n := by
  obtain ⟨a,ha⟩ := valid.exists_start
  obtain ⟨b,hb⟩ := isFinite_iff.mp valid.stop
  obtain ⟨h,hpositive,rfl⟩ := valid.exists_step hstep
  have hab : a < b := by
    have hascending := valid.ascending
    rwa [ha,hb,real_le,not_le] at hascending
  have hquotient : (c.stop-c.start)/real h = real ((b-a)/h) := by
    rw [ha,hb,real_sub,real_div _ hpositive.ne']
  have hle : (b-a)/h ≤ 1e7 := by
    have hcells := valid.cells (real h) hstep
    rwa [hquotient,real_literal,real_lt,not_lt] at hcells
  obtain ⟨n,hpoints,hcells⟩ := grid_real ha (rfl : real h = real h)
  have hn : n = toCount (real ((b-a)/h+1e-9)) := by
    have hlength := congrArg List.length hpoints
    rw [grid,hquotient,real_literal,real_add,List.length_map,List.length_map,List.length_range,
      List.length_range] at hlength
    exact Nat.succ_injective hlength.symm
  obtain ⟨hcount,hnext⟩ := toCount_bounds (div_nonneg (sub_nonneg.mpr hab.le) hpositive.le) hle
  rw [← hn] at hcount hnext
  exact ⟨a,b,h,n,ha,hb,rfl,hab,hpositive,hpoints,hcells,hcount,hnext⟩

end Scan
end Roots
end NumericWorkbench
