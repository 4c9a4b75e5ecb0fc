import NumericWorkbench.Number.Literal
import NumericWorkbench.Proofs.Linear.Factorization
/-! The shape of the factors, which needs no law of arithmetic: zeros and ones are written as such,
and a pivot that was accepted as a candidate is the same number once its row is in place. -/
namespace NumericWorkbench
namespace Linear
open Arithmetic
variable {n : Nat} {α : Type} [Arithmetic α]

namespace Progress

def after (a : Mat α n n) (k : Nat) : Except (Error α) (Progress α n) :=
  ((List.finRange n).take k).foldlM next (start a)

theorem after_succ (a : Mat α n n) (k : Fin n) : after a (k+1) = after a k >>= fun s => s.next k := by
  simp [after,List.take_add_one,List.foldlM_append]

/-- Stage `k` begins with `s` and accepts the candidate in row `p` as its pivot. -/
structure Accepts (a : Mat α n n) (k : Fin n) (s : Progress α n) (p : Fin n) : Prop where
  reached : after a k = .ok s
  chosen : choosePivot (s.candidates k) k = .ok p

theorem Accepts.after_eq {a : Mat α n n} {k p : Fin n} {s : Progress α n} (h : Accepts a k s p) :
    after a (k+1) = .ok (s.advance k p) := by
  rw [after_succ,h.reached,ok_bind,next_eq,h.chosen]
  rfl

/-- The pivots of the stages before `k` stand on the diagonal of `U`. -/
def Keeps (a : Mat α n n) (s : Progress α n) (k : Nat) : Prop :=
  ∀ i : Fin n, i.val < k → ∃ t p, Accepts a i t p ∧
    s.factors.upper.entry i i = (t.candidates i).get p

theorem Keeps.advance {a : Mat α n n} {s : Progress α n} {k p : Fin n} (h : s.Keeps a k)
    (hp : Accepts a k s p) : (s.advance k p).Keeps a (k+1) := by
  intro i hi
  simp only [Progress.advance,Mat.entry_ofFn]
  rcases (show i ≤ k by omega).eq_or_lt with rfl | hlt
  · exact ⟨s,p,hp,by simp⟩
  · rw [if_neg hlt.ne]
    exact h i hlt

end Progress

theorem accepts_of_factorize {a : Mat α n n} {f : Factors α n} (h : factorize a = .ok f) :
    ∃ t : Progress α n, t.factors = f ∧ t.Shaped a n ∧ t.Keeps a n := by
  have hspec := factorize_spec
    (I := fun k s => Progress.after a k = .ok s ∧ s.Shaped a k ∧ s.Keeps a k)
    a (positive_of_factorize h) ⟨rfl,Progress.shaped_start a,fun i hi => absurd hi (by omega)⟩ ?_
  · rw [h] at hspec
    obtain ⟨t,ht,-,hshaped,hkeeps⟩ := hspec
    exact ⟨t,ht,hshaped,hkeeps⟩
  · rintro k p s ⟨hreached,hshaped,hkeeps⟩ hp
    have haccepts : Progress.Accepts a k s p := ⟨hreached,hp⟩
    exact ⟨haccepts.after_eq,hshaped.advance hp,hkeeps.advance haccepts⟩

/-- Factors of the right shape, with exact zeros and ones. -/
structure Factors.IsTriangular (f : Factors α n) : Prop where
  order : Function.Bijective f.order.get
  lower_diagonal : ∀ i, f.lower.entry i i = 1.0
  lower_above : ∀ i j, i < j → f.lower.entry i j = 0.0
  upper_below : ∀ i j, j < i → f.upper.entry i j = 0.0

/-- Whatever the arithmetic does, factors have their shape, and each entry on the diagonal of `U` is
the candidate that was accepted as a pivot. So every right-hand side of the right height has a
solution. -/
theorem factorize_shape (a : Mat α n n) (f : Factors α n) (h : factorize a = .ok f) :
    f.IsTriangular ∧
    (∀ k, ∃ s p, Progress.Accepts a k s p ∧ f.upper.entry k k = (s.candidates k).get p) ∧
    (∀ k, ¬magnitude (f.upper.entry k k) < 1e-15 ∧ isNaN (f.upper.entry k k) = false) ∧
    ∀ b : Vector α n, ∃ x, f.solve b = .ok x := by
  obtain ⟨t,rfl,hshaped,hkeeps⟩ := accepts_of_factorize h
  have husable (k : Fin n) : isUsable (t.factors.upper.entry k k) = true := hshaped.usable k k.isLt
  refine ⟨⟨Finite.injective_iff_bijective.mp hshaped.order,?_,?_,?_⟩,?_,?_,fun b => ?_⟩
  · exact fun i => hshaped.lower_diagonal i i.isLt
  · exact hshaped.lower_above
  · exact hshaped.upper_below
  · exact fun k => hkeeps k k.isLt
  · exact fun k => (isUsable_iff _).mp (husable k)
  · rw [Factors.solve,solveFactored_self (positive_of_factorize h),
      backSubstituteChecked_eq _ _ husable]
    exact ⟨_,rfl⟩

/-- With an infinite entry the second pivot is infinite, but it is a pivot. -/
theorem factorize_shape_infinite :
    let f : Factors Float 2 :=
      ⟨#v[1,0],#v[#v[1,0],#v[0.1/0.3,1]],#v[#v[0.3,0.7],#v[0,Number.infinity]]⟩
    factorize (#v[#v[0.1,Number.infinity],#v[0.3,0.7]] : Mat Float 2 2) = .ok f ∧ f.IsTriangular ∧
      ¬magnitude (f.upper.entry 1 1) < 1e-15 ∧ ∃ x, f.solve (#v[1,1] : Vector Float 2) = .ok x := by
  intro f
  have hf : factorize (#v[#v[0.1,Number.infinity],#v[0.3,0.7]] : Mat Float 2 2) = .ok f := by
    decide +kernel
  obtain ⟨hshape,-,husable,hsolve⟩ := factorize_shape _ f hf
  exact ⟨hf,hshape,(husable 1).1,hsolve _⟩

end Linear
end NumericWorkbench
