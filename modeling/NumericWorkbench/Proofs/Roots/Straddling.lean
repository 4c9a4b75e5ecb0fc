import NumericWorkbench.Formula.Compiled
import NumericWorkbench.Proofs.Roots.Bracket
import NumericWorkbench.Proofs.Roots.History
import NumericWorkbench.Proofs.Roots.Signs
/-! What a search that meets its tolerance has found: a value close to zero, or a narrow bracket
with a change of sign. A midpoint that does not tell where the sign changes leads away from it. -/
namespace NumericWorkbench
namespace Roots
open Arithmetic Number

namespace Step

/-- The sign changes in the bracket: the values at its ends are finite and of opposite signs. -/
def Straddles {α : Type} [Arithmetic α] (f : α → α) (t : Step α) : Prop :=
  isFinite (f t.left) = true ∧ isFinite (f t.right) = true ∧ Opposite (f t.left) (f t.right)

instance {α : Type} [Arithmetic α] (f : α → α) (t : Step α) : Decidable (t.Straddles f) :=
  inferInstanceAs (Decidable (_ ∧ _ ∧ _))

/-- The value at the midpoint tells on which side of it the sign changes. -/
def Tells (f : Float → Float) (t : Step Float) : Prop :=
  isFinite t.value = true ∧ (Opposite (f t.left) t.value → ¬Vanishes (f t.left) t.value)

instance (f : Float → Float) (t : Step Float) : Decidable (t.Tells f) :=
  inferInstanceAs (Decidable (_ ∧ (_ → _)))

end Step

theorem Opposite.iff_not {u v w : Float} (hu : u.isFinite = true) (hv : v.isFinite = true)
    (hw : w.isFinite = true) (h : Opposite u w) (hne : value v ≠ 0) :
    Opposite v w ↔ ¬Opposite u v := by
  rw [opposite_iff_value hu hw] at h
  rw [opposite_iff_value hv hw,opposite_iff_value hu hv]
  exact sign_iff h hne

namespace Step
variable {f : Float → Float} {tolerance : Float} {t : Step Float}

theorem value_ne_zero (hfinite : tolerance.isFinite = true) (hpositive : ¬tolerance ≤ 0.0)
    (hdone : t.isDone tolerance = false) (hvalue : t.value.isFinite = true) :
    Number.value t.value ≠ 0 := by
  intro hzero
  obtain ⟨habs,heq⟩ := isFinite_abs hvalue
  have htolerance : 0 < Number.value tolerance := by
    rw [le_iff hfinite isFinite_zero,value_zero,not_le] at hpositive
    exact hpositive
  have hlt : magnitude t.value < tolerance := by
    refine (lt_iff habs hfinite).mpr ?_
    rwa [heq,hzero,abs_zero]
  rw [isDone_iff.mpr (.inl hlt)] at hdone
  cases hdone

theorem straddles_next_iff (h : t.Straddles f) (hcomputed : t.IsComputed f)
    (hne : t.value.isFinite = true → Number.value t.value ≠ 0) :
    (t.next f).Straddles f ↔ t.Tells f := by
  obtain ⟨hl,hr,hopposite⟩ := h
  have hnext : (t.next f).Straddles f ↔
      if f t.left*t.value < 0.0 then
        isFinite (f t.left) = true ∧ isFinite t.value = true ∧ Opposite (f t.left) t.value
      else isFinite t.value = true ∧ isFinite (f t.right) = true ∧
        Opposite t.value (f t.right) := by
    unfold next
    split <;> rw [hcomputed.value] <;> rfl
  rw [hnext]
  cases hvalue : isFinite t.value with
  | false => simp [Tells,hvalue]
  | true =>
    have hneg := mul_neg_iff_opposite hl hvalue
    have hother := hopposite.iff_not hl hvalue hr (hne hvalue)
    by_cases hleft : f t.left*t.value < 0.0
    case pos =>
      obtain ⟨hopposite,hvanishes⟩ := hneg.mp hleft
      rw [if_pos hleft]
      exact iff_of_true ⟨hl,rfl,hopposite⟩ ⟨hvalue,fun _ => hvanishes⟩
    case neg =>
      have hvanishes : Opposite (f t.left) t.value → Vanishes (f t.left) t.value := by
        intro h
        by_contra hnot
        exact hleft (hneg.mpr ⟨h,hnot⟩)
      rw [if_neg hleft,hother]
      exact ⟨fun h => ⟨hvalue,fun h' => absurd h' h.2.2⟩,
        fun h => ⟨rfl,hr,fun h' => h.2 h' (hvanishes h')⟩⟩

theorem straddles_within {a b : Float} (h : IsBracket f a b) (index : Nat) :
    (within f index a b).Straddles f := by
  have hneg : f a*f b < 0.0 :=
    not_not.mp (mt (nonneg_mul_iff h.left_value h.right_value).mpr h.sign)
  exact ⟨h.left_value,h.right_value,
    ((mul_neg_iff_opposite h.left_value h.right_value).mp hneg).1⟩

end Step

section Searches
variable {f : Float → Float} {a b : Float} {s : Settings Float} {r : Bisection Float}

theorem straddles_next (valid : s.validate = .ok ()) {t : Step Float} (h : t.Straddles f)
    (hcomputed : t.IsComputed f) (hdone : t.isDone s.tolerance = false) :
    (t.next f).Straddles f ↔ t.Tells f := by
  obtain ⟨hfinite,hpositive,-⟩ := Settings.validate_eq_ok.mp valid
  exact Step.straddles_next_iff h hcomputed (Step.value_ne_zero hfinite hpositive hdone)

theorem straddles_steps (valid : s.validate = .ok ()) (hbracket : IsBracket f a b)
    (htells : ∀ t ∈ (steps f a b s).dropLast, t.Tells f) :
    ∀ t ∈ steps f a b s, t.Straddles f := by
  have hnext (t : Step Float) (h : t.Straddles f ∧ t.IsComputed f) (htells : t.Tells f)
      (hdone : t.isDone s.tolerance = false) : (t.next f).Straddles f ∧ (t.next f).IsComputed f :=
    ⟨(straddles_next valid h.1 h.2 hdone).mpr htells,Step.isComputed_next f t⟩
  have hfirst := Step.straddles_within hbracket 1
  exact fun t ht => (stepsFrom_keeps_while hnext _ _
    ⟨hfirst,Step.isComputed_within f 1 a b⟩ htells t ht).1

/-- The first bracket of a search has a change of sign, and the next one keeps it exactly if the
midpoint tells where it is. If all midpoints before the last one do, a search that meets its
tolerance ends with a value below it or with a change of sign in so narrow a bracket. -/
theorem bisect_straddles (f : Float → Float) (a b : Float) (s : Settings Float)
    (r : Bisection Float) (h : bisect f a b s = .ok r) :
    (∀ t ∈ r.trace.head?, t.Straddles f) ∧
    (∀ i t u, r.trace[i]? = some t → r.trace[i+1]? = some u → t.Straddles f →
      (u.Straddles f ↔ t.Tells f)) ∧
    (r.converged = true → (∀ t ∈ r.trace.dropLast, t.Tells f) →
      magnitude r.residual < s.tolerance ∨
        ∃ t ∈ r.trace.getLast?, t.Straddles f ∧
          magnitude (t.right-t.left)/2.0 < s.tolerance) := by
  obtain ⟨valid,hbracket,rfl⟩ := bisect_eq_ok.mp h
  obtain ⟨last,hlast,-,heq⟩ := bisection_eq f a b valid
  rw [heq]
  refine ⟨fun t ht => ?_,fun i t u ht hu hstraddles => ?_,fun hconverged htells => ?_⟩
  · obtain rfl : Step.within f 1 a b = t := Option.some.inj ((head?_stepsFrom _ _).symm.trans ht)
    exact Step.straddles_within hbracket 1
  · obtain ⟨hdone,rfl⟩ := next_steps ht hu
    have hcomputed := isComputed_steps f a b s t (List.mem_of_getElem? ht)
    exact straddles_next valid hstraddles hcomputed hdone
  · have hstraddles := straddles_steps valid hbracket htells last (List.mem_of_getLast? hlast)
    exact (Step.isDone_iff.mp hconverged).imp_right fun hwidth => ⟨last,hlast,hstraddles,hwidth⟩

theorem bisect_straddles_hole :
    let f : Float → Float := fun x => 10*(x-1)*(x-1)/(x-1)
    ∃ r, bisect f (-1) 2 ⟨0.2,10⟩ = .ok r ∧ ¬magnitude r.residual < 0.2 ∧
      ∃ t ∈ r.trace.getLast?, t.Straddles f ∧ magnitude (t.right-t.left)/2.0 < 0.2 := by
  intro f
  obtain ⟨r,hr⟩ := exists_eq_ok (m := bisect f (-1) 2 ⟨0.2,10⟩) (by decide +kernel)
  have hrun : (bisect f (-1) 2 ⟨0.2,10⟩).map (fun r => (r.converged,
      r.trace.dropLast.all fun t => decide (t.Tells f),decide (magnitude r.residual < 0.2))) =
      .ok (true,true,false) := by decide +kernel
  rw [hr] at hrun
  simp only [Except.map,Except.ok.injEq,Prod.mk.injEq,List.all_eq_true,decide_eq_true_iff,
    decide_eq_false_iff_not] at hrun
  obtain ⟨hconverged,htells,hresidual⟩ := hrun
  obtain ⟨-,-,hfound⟩ := bisect_straddles f (-1) 2 ⟨0.2,10⟩ r hr
  exact ⟨r,hr,hresidual,(hfound hconverged htells).resolve_left hresidual⟩

/-- At the first midpoint the formula has no value. The search goes on to the right of it, where
the sign does not change, and ends there as if it had found a root. -/
theorem converged_undefined :
    ∃ f r, Formula.compile "(x-1)*(x-1)/(x-1)" = .ok f ∧ bisect f.eval 0 2 ⟨0.5,3⟩ = .ok r ∧
      r.converged = true ∧ ¬magnitude r.residual < 0.5 ∧
      ∀ t ∈ r.trace.getLast?, ¬t.Straddles f.eval := by
  let d : Formula.Expr := .binary .sub .var (.const 1)
  let f : Formula := ⟨"(x-1)*(x-1)/(x-1)",.binary .div (.binary .mul d d) d⟩
  obtain ⟨r,hr⟩ := exists_eq_ok (m := bisect f.eval 0 2 ⟨0.5,3⟩) (by decide +kernel)
  have hrun : (bisect f.eval 0 2 ⟨0.5,3⟩).map (fun r => (r.converged,
      decide (magnitude r.residual < 0.5),r.trace.getLast?.all fun t => !decide (t.Straddles f.eval))) =
      .ok (true,false,true) := by decide +kernel
  rw [hr] at hrun
  simp only [Except.map,Except.ok.injEq,Prod.mk.injEq,Option.all_eq_true,decide_eq_false_iff_not,
    Bool.not_eq_true'] at hrun
  obtain ⟨hconverged,hresidual,hlast⟩ := hrun
  exact ⟨f,r,by decide +kernel,hr,hconverged,hresidual,hlast⟩

end Searches

end Roots
end NumericWorkbench
