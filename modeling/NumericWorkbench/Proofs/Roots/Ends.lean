import NumericWorkbench.Proofs.Roots.Trace
/-! Which ends a search accepts, and when it refuses them for the signs of their values. -/
namespace NumericWorkbench
namespace Roots
open Arithmetic
variable {α : Type} [Arithmetic α]

/-- Different finite numbers at which the function is finite. -/
structure AreEnds (f : α → α) (a b : α) : Prop where
  left_finite : isFinite a = true
  right_finite : isFinite b = true
  ne : (a == b) = false
  left_value : isFinite (f a) = true
  right_value : isFinite (f b) = true

/-- The values at the ends have opposite signs, as far as their product tells. -/
structure IsBracket (f : α → α) (a b : α) : Prop extends AreEnds f a b where
  sign : ¬0.0 ≤ f a*f b

variable {f : α → α} {a b : α} {s : Settings α}

theorem bisect_eq_ite (valid : s.validate = .ok ()) (h : AreEnds f a b) :
    bisect f a b s =
      if 0.0 ≤ f a*f b then .error (.sameSign (f a) (f b)) else .ok (bisection f a b s) := by
  unfold bisect
  rw [valid,ok_bind]
  simp only [h.left_finite,h.right_finite,h.ne,h.left_value,h.right_value]
  rfl

theorem bisect_refuses (h : ¬(s.validate = .ok () ∧ AreEnds f a b)) :
    ∃ e, bisect f a b s = .error e ∧ ∀ v w, e ≠ .sameSign v w := by
  unfold bisect
  rcases hvalid : s.validate with e | ⟨⟨⟩⟩
  · refine ⟨e,rfl,?_⟩
    rintro v w rfl
    unfold Settings.validate at hvalid
    split_ifs at hvalid <;> cases hvalid
  rw [ok_bind]
  by_cases hfinite : (!isFinite a || !isFinite b) = true
  · exact ⟨_,if_pos hfinite,nofun⟩
  rcases Bool.eq_false_or_eq_true (a == b) with hne | hne
  · exact ⟨_,(if_neg hfinite).trans (if_pos hne),nofun⟩
  have hne' : ¬(a == b) = true := Bool.eq_false_iff.mp hne
  by_cases hvalue : (!isFinite (f a) || !isFinite (f b)) = true
  · exact ⟨_,(if_neg hfinite).trans ((if_neg hne').trans (if_pos hvalue)),nofun⟩
  · simp only [Bool.or_eq_true,Bool.not_eq_true',not_or,Bool.not_eq_false] at hfinite hvalue
    exact absurd ⟨hvalid,hfinite.1,hfinite.2,hne,hvalue.1,hvalue.2⟩ h

theorem bisect_eq (valid : s.validate = .ok ()) (h : IsBracket f a b) :
    bisect f a b s = .ok (bisection f a b s) :=
  (bisect_eq_ite valid h.toAreEnds).trans (if_neg h.sign)

theorem bisect_eq_ok {r : Bisection α} : bisect f a b s = .ok r ↔
    s.validate = .ok () ∧ IsBracket f a b ∧ r = bisection f a b s := by
  constructor
  · intro hok
    by_cases h : s.validate = .ok () ∧ AreEnds f a b
    · obtain ⟨valid,ends⟩ := h
      rw [bisect_eq_ite valid ends] at hok
      split at hok
      · cases hok
      · rename_i hsign
        exact ⟨valid,⟨ends,hsign⟩,(Except.ok.inj hok).symm⟩
    · obtain ⟨e,he,-⟩ := bisect_refuses h
      rw [he] at hok
      cases hok
  · rintro ⟨valid,h,rfl⟩
    exact bisect_eq valid h

theorem bisect_eq_sameSign {v w : α} : bisect f a b s = .error (.sameSign v w) ↔
    s.validate = .ok () ∧ AreEnds f a b ∧ 0.0 ≤ f a*f b ∧ v = f a ∧ w = f b := by
  by_cases h : s.validate = .ok () ∧ AreEnds f a b
  · rw [bisect_eq_ite h.1 h.2]
    split <;> simp_all [eq_comm]
  · obtain ⟨e,he,hother⟩ := bisect_refuses h
    rw [he,Except.error.injEq]
    exact iff_of_false (hother v w) fun herror => h ⟨herror.1,herror.2.1⟩

end Roots
end NumericWorkbench
