import NumericWorkbench.Proofs.Extended
import NumericWorkbench.Proofs.Roots.Trace
/-! A search between two numbers over exact arithmetic, where the function may have no finite value
at some points. Whatever the values are, it stays between the two numbers and looks at the function
nowhere else. -/
namespace NumericWorkbench
namespace Roots
open Arithmetic Extended
variable {K : Type} [Field K] [LinearOrder K]

/-- A step between `a` and `b`: its bracket lies there, and its midpoint is the middle of it. -/
def Step.Halves (a b : K) (t : Step (Extended K)) : Prop :=
  ∃ l r, a ≤ l ∧ l < r ∧ r ≤ b ∧ t.left = real l ∧ t.right = real r ∧
    t.midpoint = real ((l+r)/2)

section Midpoint
variable [IsStrictOrderedRing K] {a b : K} {t : Step (Extended K)}

theorem Step.Halves.midpoint_mem (h : t.Halves a b) :
    ∃ m, a < m ∧ m < b ∧ t.midpoint = real m := by
  obtain ⟨l,r,hl,hlr,hr,-,-,hmidpoint⟩ := h
  exact ⟨_,hl.trans_lt (left_lt_add_div_two.mpr hlr),(add_div_two_lt_right.mpr hlr).trans_le hr,
    hmidpoint⟩

end Midpoint

variable [FloorRing K]

theorem midpoint_real (l r : K) : (real l+real r)/2.0 = real ((l+r)/2) := by
  rw [real_literal,real_add,real_div] <;> norm_num

variable {f g : Extended K → Extended K} {a b : K} {s : Settings (Extended K)}

theorem Step.halves_within {l r : K} (hl : a ≤ l) (hlr : l < r) (hr : r ≤ b)
    (f : Extended K → Extended K) (index : Nat) :
    (within f index (real l) (real r)).Halves a b :=
  ⟨l,r,hl,hlr,hr,rfl,rfl,midpoint_real l r⟩

variable [IsStrictOrderedRing K]

theorem Step.Halves.next {t : Step (Extended K)} (h : t.Halves a b) : (t.next f).Halves a b := by
  obtain ⟨l,r,hl,hlr,hr,hleft,hright,hmidpoint⟩ := h
  have hlm := left_lt_add_div_two.mpr hlr
  have hmr := add_div_two_lt_right.mpr hlr
  unfold Step.next
  split
  · rw [hleft,hmidpoint]
    exact halves_within hl hlm (hmr.le.trans hr) f _
  · rw [hright,hmidpoint]
    exact halves_within (hl.trans hlm.le) hmr hr f _

/-- The root is strictly inside, even where the function has led the search astray. -/
theorem exists_root_inside (valid : s.validate = .ok ()) (hab : a < b) :
    ∃ m, a < m ∧ m < b ∧ (bisection f (real a) (real b) s).root = real m := by
  obtain ⟨last,hlast,-,heq⟩ := bisection_eq f (real a) (real b) valid
  have hall : ∀ t ∈ steps f (real a) (real b) s, t.Halves a b :=
    stepsFrom_keeps (fun _ h _ => h.next) _ _ (Step.halves_within le_rfl hab le_rfl f 1)
  rw [heq]
  exact (hall last (List.mem_of_getLast? hlast)).midpoint_mem

section Agreement
variable (h : ∀ x, a ≤ x → x ≤ b → f (real x) = g (real x))
include h

theorem Step.within_congr {l r : K} (hl : a ≤ l) (hlr : l < r) (hr : r ≤ b) (index : Nat) :
    within f index (real l) (real r) = within g index (real l) (real r) := by
  have hvalue := h ((l+r)/2) (hl.trans (left_lt_add_div_two.mpr hlr).le)
    ((add_div_two_lt_right.mpr hlr).le.trans hr)
  rw [within,within,midpoint_real,hvalue]

theorem Step.Halves.next_congr {t : Step (Extended K)} (ht : t.Halves a b) :
    t.next f = t.next g := by
  obtain ⟨l,r,hl,hlr,hr,hleft,hright,hmidpoint⟩ := ht
  have hlm := left_lt_add_div_two.mpr hlr
  have hmr := add_div_two_lt_right.mpr hlr
  unfold Step.next
  rw [hleft,hright,hmidpoint,h l hl (hlr.le.trans hr),
    within_congr h hl hlm (hmr.le.trans hr),within_congr h (hl.trans hlm.le) hmr hr]

theorem stepsFrom_congr (tolerance : Extended K) (more : Nat) {t : Step (Extended K)}
    (ht : t.Halves a b) : stepsFrom f tolerance more t = stepsFrom g tolerance more t := by
  induction more generalizing t with
  | zero => rfl
  | succ more ih => rw [stepsFrom,stepsFrom,ih ht.next,ht.next_congr h]

theorem bisection_congr (valid : s.validate = .ok ()) (hab : a < b) :
    bisection f (real a) (real b) s = bisection g (real a) (real b) s := by
  have hsteps : steps f (real a) (real b) s = steps g (real a) (real b) s := by
    rw [steps,steps,Step.within_congr h le_rfl hab le_rfl]
    exact stepsFrom_congr h _ _ (Step.halves_within le_rfl hab le_rfl g 1)
  obtain ⟨last,hlast,-,heq⟩ := bisection_eq f (real a) (real b) valid
  obtain ⟨last',hlast',-,heq'⟩ := bisection_eq g (real a) (real b) valid
  rw [hsteps,hlast',Option.some.injEq] at hlast
  rw [heq,heq',hsteps,hlast]

end Agreement

end Roots
end NumericWorkbench
