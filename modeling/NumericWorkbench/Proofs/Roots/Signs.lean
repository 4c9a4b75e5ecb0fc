import NumericWorkbench.Proofs.Number.Value
import NumericWorkbench.Proofs.Roots.Scan
/-! The sign of a floating-point product as a test of the signs of its factors. It tells opposite
signs, unless the exact product is so small that it rounds to zero. -/
namespace NumericWorkbench
namespace Roots
open Number

/-- The exact product is at most half of the smallest positive number, and so it rounds to zero. -/
def Vanishes (v w : Float) : Prop := |value v*value w| ≤ 2^(-1075 : ℤ)

instance (v w : Float) : Decidable (Vanishes v w) :=
  inferInstanceAs (Decidable (|value v*value w| ≤ 2^(-1075 : ℤ)))

section Products
variable {v w : Float}

theorem opposite_iff_value (hv : v.isFinite = true) (hw : w.isFinite = true) :
    Opposite v w ↔ value v*value w < 0 := by
  have hlt {x y : Float} (hx : x.isFinite = true) (hy : y.isFinite = true) :
      x < y ↔ value x < value y := lt_iff hx hy
  rw [mul_neg_iff,or_comm,← value_zero,← hlt hv isFinite_zero,← hlt isFinite_zero hw,
    ← hlt isFinite_zero hv,← hlt hw isFinite_zero]
  rfl

theorem mul_neg_iff_opposite (hv : v.isFinite = true) (hw : w.isFinite = true) :
    v*w < 0.0 ↔ Opposite v w ∧ ¬Vanishes v w := by
  rw [(isNearest_mul hv hw).neg_iff,nearest_neg_iff,opposite_iff_value hv hw,Vanishes,not_le]

theorem nonneg_mul_iff (hv : v.isFinite = true) (hw : w.isFinite = true) :
    0.0 ≤ v*w ↔ ¬v*w < 0.0 := by
  rw [(isNearest_mul hv hw).nonneg_iff,(isNearest_mul hv hw).neg_iff,not_lt]

end Products

/-- Between finite values, the test for a bracket and the one for a change of sign ask for opposite
signs and for a product that does not vanish. -/
theorem bracket_iff (f : Float → Float) :
    (∀ (a b : Float) (s : Settings Float), s.validate = .ok () → AreEnds f a b →
      (bisect f a b s = .error (.sameSign (f a) (f b)) ↔
        ¬Opposite (f a) (f b) ∨ Vanishes (f a) (f b)) ∧
      ((∃ r, bisect f a b s = .ok r) ↔ Opposite (f a) (f b) ∧ ¬Vanishes (f a) (f b))) ∧
    (∀ (c : Scan Float) (step : Float), ∀ cell ∈ (c.grid step).zip (c.grid step).tail,
      (f cell.1).isFinite = true → (f cell.2).isFinite = true →
      (cell ∈ signChanges f c step ↔
        Opposite (f cell.1) (f cell.2) ∧ ¬Vanishes (f cell.1) (f cell.2))) := by
  constructor
  · intro a b s valid ends
    have hnonneg : (0.0 : Float) ≤ f a*f b ↔ ¬f a*f b < 0.0 :=
      nonneg_mul_iff ends.left_value ends.right_value
    have hneg : f a*f b < 0.0 ↔ Opposite (f a) (f b) ∧ ¬Vanishes (f a) (f b) :=
      mul_neg_iff_opposite ends.left_value ends.right_value
    constructor
    · rw [bisect_eq_sameSign,hnonneg,hneg,not_and_or,not_not]
      simp [valid,ends]
    · have hok : (∃ r, bisect f a b s = .ok r) ↔ ¬0.0 ≤ f a*f b :=
        ⟨fun ⟨_,hr⟩ => (bisect_eq_ok.mp hr).2.1.sign,
          fun hsign => ⟨_,bisect_eq valid ⟨ends,hsign⟩⟩⟩
      rw [hok,hnonneg,not_not,hneg]
  · intro c step cell hcell hl hr
    rw [mem_signChanges,and_iff_right hcell,← mul_neg_iff_opposite hl hr,changesSign]
    have hfinite : Arithmetic.isFinite (f cell.1) && Arithmetic.isFinite (f cell.2) :=
      Bool.and_eq_true_iff.mpr ⟨hl,hr⟩
    rw [hfinite,Bool.true_and,decide_eq_true_iff]

theorem bracket_iff_subnormal :
    let f : Float → Float := fun x => x*1e-160
    let c : Scan Float := ⟨-1,1,[2],1e-6,10,0⟩
    (∃ r, bisect f (-1) 1 ⟨1e-6,10⟩ = .ok r) ∧ (-1,1) ∈ signChanges f c 2 := by
  intro f c
  obtain ⟨hbracket,hchange⟩ := bracket_iff f
  have ends : AreEnds f (-1) 1 := by constructor <;> decide +kernel
  have hopposite : Opposite (f (-1)) (f 1) := by decide +kernel
  have hvanishes : ¬Vanishes (f (-1)) (f 1) := by decide +kernel
  have hcells : (c.grid 2).zip (c.grid 2).tail = [(-1,1)] := by decide +kernel
  exact ⟨(hbracket (-1) 1 ⟨1e-6,10⟩ (by decide +kernel) ends).2.mpr ⟨hopposite,hvanishes⟩,
    (hchange c 2 (-1,1) (by simp [hcells]) ends.left_value ends.right_value).mpr
      ⟨hopposite,hvanishes⟩⟩

/-- The values have opposite signs, but their product rounds to zero. -/
theorem opposite_refused :
    let f : Float → Float := fun x => x*1e-200
    let c : Scan Float := ⟨-1,1,[2],1e-6,10,0⟩
    AreEnds f (-1) 1 ∧ Opposite (f (-1)) (f 1) ∧
      bisect f (-1) 1 ⟨1e-6,10⟩ = .error (.sameSign (f (-1)) (f 1)) ∧
      (c.grid 2).zip (c.grid 2).tail = [(-1,1)] ∧ signChanges f c 2 = [] := by
  refine ⟨by constructor <;> decide +kernel,?_,?_,?_,?_⟩ <;> decide +kernel

end Roots
end NumericWorkbench
