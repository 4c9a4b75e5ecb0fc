import NumericWorkbench.Proofs.Roots.Bracket
/-! Over exact arithmetic a search between `a` and `b` is the mirror image of the one between `b` and
`a`. The two look at different ends of the bracket, but the change of sign inside it lets both keep
the same half. -/
namespace NumericWorkbench
namespace Roots
open Arithmetic

section AnyArithmetic
variable {α : Type}

def Step.mirror (t : Step α) : Step α := ⟨t.index,t.right,t.left,t.midpoint,t.value⟩

def Bisection.mirror (r : Bisection α) : Bisection α :=
  ⟨r.trace.map Step.mirror,r.root,r.residual,r.converged⟩

end AnyArithmetic

variable {K : Type} [Field K] [LinearOrder K] [FloorRing K]
variable {f : K → K} {a b tolerance : K}

theorem AreEnds.symm (h : AreEnds f a b) : AreEnds f b a :=
  areEnds_exact_iff.mpr (areEnds_exact_iff.mp h).symm

theorem IsBracket.symm (h : IsBracket f a b) : IsBracket f b a where
  toAreEnds := h.toAreEnds.symm
  sign := by
    rw [mul_comm]
    exact h.sign

namespace Step

theorem mirror_within (f : K → K) (index : Nat) (left right : K) :
    (within f index left right).mirror = within f index right left := by
  rw [within_exact,within_exact,add_comm right left]
  rfl

theorem mirror_isDone (t : Step K) : t.mirror.isDone tolerance = t.isDone tolerance := by
  rw [Bool.eq_iff_iff,isDone_exact,isDone_exact,abs_sub_comm t.right]
  rfl

end Step

variable [IsStrictOrderedRing K]

namespace Step
variable {t : Step K}

theorem Encloses.next_mirror (h : t.Encloses f a b) (positive : 0 < tolerance)
    (hdone : t.isDone tolerance = false) : t.mirror.next f = (t.next f).mirror := by
  have hnonzero := value_exact_ne_zero positive hdone
  have hside : f t.right*t.value < 0 ↔ ¬f t.left*t.value < 0 := by
    rw [mul_comm,sign_iff h.sign hnonzero]
  have hmirror : t.mirror.next f =
      if f t.right*t.value < 0.0 then within f (t.index+1) t.right t.midpoint
      else within f (t.index+1) t.midpoint t.left := rfl
  rw [hmirror,Step.next,zero_literal]
  by_cases hleft : f t.left*t.value < 0
  · have hright : ¬f t.right*t.value < 0 := fun hright => hside.mp hright hleft
    rw [if_neg hright,if_pos hleft]
    exact (mirror_within f (t.index+1) t.left t.midpoint).symm
  · rw [if_pos (hside.mpr hleft),if_neg hleft]
    exact (mirror_within f (t.index+1) t.midpoint t.right).symm

end Step

theorem stepsFrom_mirror (positive : 0 < tolerance) (more : Nat) {t : Step K}
    (h : t.Encloses f a b) :
    stepsFrom f tolerance more t.mirror = (stepsFrom f tolerance more t).map Step.mirror := by
  induction more generalizing t with
  | zero => rfl
  | succ more ih =>
    cases hdone : t.isDone tolerance with
    | true => rw [stepsFrom_done hdone,stepsFrom_done (t.mirror_isDone.trans hdone)]; rfl
    | false =>
      rw [stepsFrom_more hdone,stepsFrom_more (t.mirror_isDone.trans hdone),
        h.next_mirror positive hdone,ih (h.next positive hdone)]
      rfl

theorem bisection_mirror {s : Settings K} (valid : s.validate = .ok ()) (hf : f a*f b < 0) :
    bisection f b a s = (bisection f a b s).mirror := by
  obtain ⟨-,hpositive,-⟩ := Settings.validate_eq_ok.mp valid
  rw [zero_literal,not_le] at hpositive
  obtain ⟨last,hlast,-,heq⟩ := bisection_eq f a b valid
  obtain ⟨last',hlast',-,heq'⟩ := bisection_eq f b a valid
  have hsteps : steps f b a s = (steps f a b s).map Step.mirror := by
    rw [steps,← Step.mirror_within]
    exact stepsFrom_mirror hpositive _ (Step.encloses_first hf)
  rw [hsteps,List.getLast?_map,hlast] at hlast'
  obtain rfl : last.mirror = last' := Option.some.inj hlast'
  rw [heq,heq',hsteps,Bisection.ofSteps,Step.mirror_isDone]
  rfl

/-- A search that succeeds does so from the other end as well: the root, the number of steps and the
outcome are the same, and every step has its ends exchanged. Values of the same sign are refused
from both ends. -/
theorem bisect_mirror (f : K → K) (a b : K) (s : Settings K) :
    (∀ r, bisect f a b s = .ok r → ∃ r', bisect f b a s = .ok r' ∧
      r'.root = r.root ∧ r'.residual = r.residual ∧ r'.converged = r.converged ∧
      r'.iterations = r.iterations ∧ r'.trace = r.trace.map Step.mirror) ∧
    ∀ v w, bisect f a b s = .error (.sameSign v w) → bisect f b a s = .error (.sameSign w v) := by
  constructor
  · intro r hr
    obtain ⟨hvalid,hbracket,rfl⟩ := bisect_eq_ok.mp hr
    refine ⟨(bisection f a b s).mirror,?_,rfl,rfl,rfl,List.length_map _,rfl⟩
    have hsign := hbracket.sign
    rw [zero_literal,not_le] at hsign
    rw [← bisection_mirror hvalid hsign]
    exact bisect_eq hvalid hbracket.symm
  · intro v w herror
    obtain ⟨hvalid,hends,hsign,rfl,rfl⟩ := bisect_eq_sameSign.mp herror
    exact bisect_eq_sameSign.mpr ⟨hvalid,hends.symm,by rwa [mul_comm],rfl,rfl⟩

theorem bisect_mirror_square :
    let f : ℚ → ℚ := fun x => x*x-2
    (∃ r, bisect f 0 2 ⟨1/10,5⟩ = .ok r ∧ ∃ r', bisect f 2 0 ⟨1/10,5⟩ = .ok r' ∧
      r'.trace = r.trace.map Step.mirror) ∧
    bisect f 2 3 ⟨1/10,5⟩ = .error (.sameSign 2 7) ∧
    bisect f 3 2 ⟨1/10,5⟩ = .error (.sameSign 7 2) := by
  intro f
  obtain ⟨r,hr⟩ := exists_eq_ok (m := bisect f 0 2 ⟨1/10,5⟩) (by decide +kernel)
  obtain ⟨r',hr',-,-,-,-,htrace⟩ := (bisect_mirror f 0 2 ⟨1/10,5⟩).1 r hr
  have hrefused : bisect f 2 3 ⟨1/10,5⟩ = .error (.sameSign 2 7) := by decide +kernel
  exact ⟨⟨r,hr,r',hr',htrace⟩,hrefused,(bisect_mirror f 2 3 ⟨1/10,5⟩).2 2 7 hrefused⟩

end Roots
end NumericWorkbench
