import NumericWorkbench.Proofs.Number.Value
import NumericWorkbench.Proofs.Roots.History
/-! The midpoints of a search in floating-point numbers. They stay between its ends as long as the
sum of the ends of a bracket does not overflow. -/
namespace NumericWorkbench
namespace Roots
open Number

/-- A finite number between two others, in either order. -/
def Inside (a b x : Float) : Prop := x.isFinite = true ∧ (a ≤ x ∧ x ≤ b ∨ b ≤ x ∧ x ≤ a)

instance (a b x : Float) : Decidable (Inside a b x) :=
  inferInstanceAs (Decidable (_ ∧ (_ ∨ _)))

theorem add_mem_uIcc {p q x y : ℚ} (hx : x ∈ Set.uIcc p q) (hy : y ∈ Set.uIcc p q) :
    x+y ∈ Set.uIcc (2*p) (2*q) := by
  rcases le_total p q with h | h
  · rw [Set.uIcc_of_le h,Set.mem_Icc] at hx hy
    exact Set.mem_uIcc_of_le (by linarith) (by linarith)
  · rw [Set.uIcc_of_ge h,Set.mem_Icc] at hx hy
    exact Set.mem_uIcc_of_ge (by linarith) (by linarith)

theorem half_mem_uIcc {p q x : ℚ} (h : x ∈ Set.uIcc (2*p) (2*q)) : x/2 ∈ Set.uIcc p q := by
  rw [Set.mem_uIcc] at h ⊢
  exact h.imp (fun h => ⟨by linarith,by linarith⟩) fun h => ⟨by linarith,by linarith⟩

theorem abs_lt_of_mem_uIcc {p q x bound : ℚ} (hp : |p| < bound) (hq : |q| < bound)
    (h : x ∈ Set.uIcc p q) : |x| < bound :=
  abs_lt.mpr (Set.ordConnected_Ioo.uIcc_subset (abs_lt.mp hp) (abs_lt.mp hq) h)

section Midpoints
variable {a b l r x : Float}

theorem inside_iff (ha : a.isFinite = true) (hb : b.isFinite = true) :
    Inside a b x ↔ x.isFinite = true ∧ value x ∈ Set.uIcc (value a) (value b) := by
  refine and_congr_right fun hx => ?_
  rw [Set.mem_uIcc,le_iff ha hx,le_iff hx hb,le_iff hb hx,le_iff hx ha]

theorem inside_left (ha : a.isFinite = true) (hb : b.isFinite = true) : Inside a b a :=
  (inside_iff ha hb).mpr ⟨ha,Set.left_mem_uIcc⟩

theorem inside_right (ha : a.isFinite = true) (hb : b.isFinite = true) : Inside a b b :=
  (inside_iff ha hb).mpr ⟨hb,Set.right_mem_uIcc⟩

theorem nearest_add_mem (ha : a.isFinite = true) (hb : b.isFinite = true) (hl : Inside a b l)
    (hr : Inside a b r) :
    nearest (value l+value r) ∈ Set.uIcc (2*value a) (2*value b) := by
  have hmem := add_mem_uIcc ((inside_iff ha hb).mp hl).2 ((inside_iff ha hb).mp hr).2
  exact (isGrid_value ha).double.nearest_mem_uIcc (isGrid_value hb).double hmem

theorem inside_midpoint (ha : a.isFinite = true) (hb : b.isFinite = true) (hl : Inside a b l)
    (hr : Inside a b r) (hsum : (l+r).isFinite = true) : Inside a b ((l+r)/2.0) := by
  have hsum' : value (l+r) ∈ Set.uIcc (2*value a) (2*value b) :=
    (isNearest_add hl.1 hr.1).value_eq hsum ▸ nearest_add_mem ha hb hl hr
  have hhalf : IsNearest ((l+r)/2.0) (value (l+r)/2) := by
    have h := isNearest_div hsum (y := 2.0) rfl (by rw [value_two]; exact two_ne_zero)
    rwa [value_two] at h
  have hmem := (isGrid_value ha).nearest_mem_uIcc (isGrid_value hb) (half_mem_uIcc hsum')
  have hfinite : ((l+r)/2.0).isFinite = true :=
    hhalf.isFinite_iff.mpr (abs_lt_of_mem_uIcc (abs_value_lt ha) (abs_value_lt hb) hmem)
  exact (inside_iff ha hb).mpr ⟨hfinite,(hhalf.value_eq hfinite).symm ▸ hmem⟩

theorem abs_double_lt (ha : a.isFinite = true) (h : (a+a).isFinite = true) :
    |2*value a| < 2^(1024 : ℤ) := by
  rwa [(isNearest_add ha ha).isFinite_iff,← two_mul,(isGrid_value ha).double.nearest_eq] at h

theorem isFinite_add_of_inside (ha : a.isFinite = true) (hb : b.isFinite = true)
    (ha' : (a+a).isFinite = true) (hb' : (b+b).isFinite = true) (hl : Inside a b l)
    (hr : Inside a b r) : (l+r).isFinite = true :=
  (isNearest_add hl.1 hr.1).isFinite_iff.mpr
    (abs_lt_of_mem_uIcc (abs_double_lt ha ha') (abs_double_lt hb hb') (nearest_add_mem ha hb hl hr))

end Midpoints

namespace Step
variable {f : Float → Float} {a b : Float} {t : Step Float}

/-- The bracket of a step lies between the ends, and its midpoint is computed from it. -/
structure IsWithin (f : Float → Float) (a b : Float) (t : Step Float) : Prop where
  left : Inside a b t.left
  right : Inside a b t.right
  computed : t.IsComputed f

theorem IsWithin.inside_midpoint (ends : AreEnds f a b) (h : t.IsWithin f a b)
    (hsum : (t.left+t.right).isFinite = true) : Inside a b t.midpoint := by
  rw [h.computed.midpoint]
  exact Roots.inside_midpoint ends.left_finite ends.right_finite h.left h.right hsum

theorem IsWithin.next (ends : AreEnds f a b) (h : t.IsWithin f a b)
    (hsum : (t.left+t.right).isFinite = true) : (t.next f).IsWithin f a b := by
  have hmidpoint := h.inside_midpoint ends hsum
  unfold Step.next
  split
  · exact ⟨h.left,hmidpoint,isComputed_within f _ _ _⟩
  · exact ⟨hmidpoint,h.right,isComputed_within f _ _ _⟩

theorem isWithin_first (ends : AreEnds f a b) : (within f 1 a b).IsWithin f a b :=
  ⟨inside_left ends.left_finite ends.right_finite,inside_right ends.left_finite ends.right_finite,
    isComputed_within f 1 a b⟩

end Step

section Searches
variable {f : Float → Float} {a b : Float} {s : Settings Float}

theorem isWithin_steps (ends : AreEnds f a b)
    (hsums : ∀ t ∈ (steps f a b s).dropLast, (t.left+t.right).isFinite = true) :
    ∀ t ∈ steps f a b s, t.IsWithin f a b :=
  stepsFrom_keeps_while (fun _ h hsum _ => h.next ends hsum) _ _ (Step.isWithin_first ends) hsums

theorem isFinite_add_steps (ends : AreEnds f a b) (ha : (a+a).isFinite = true)
    (hb : (b+b).isFinite = true) : ∀ t ∈ steps f a b s, (t.left+t.right).isFinite = true := by
  have hsum {t : Step Float} (h : t.IsWithin f a b) : (t.left+t.right).isFinite = true :=
    isFinite_add_of_inside ends.left_finite ends.right_finite ha hb h.left h.right
  have hwithin : ∀ t ∈ steps f a b s, t.IsWithin f a b :=
    stepsFrom_keeps (fun t h _ => h.next ends (hsum h)) _ _ (Step.isWithin_first ends)
  exact fun t ht => hsum (hwithin t ht)

/-- A search stays between its ends exactly as long as no sum of the ends of a bracket overflows.
It never leaves them if the doubles of both are finite. -/
theorem bisect_inside (f : Float → Float) (a b : Float) (s : Settings Float) (r : Bisection Float)
    (h : bisect f a b s = .ok r) :
    ((∀ t ∈ r.trace, Inside a b t.midpoint) ∧ Inside a b r.root ↔
      ∀ t ∈ r.trace, (t.left+t.right).isFinite = true) ∧
    ((a+a).isFinite = true → (b+b).isFinite = true →
      (∀ t ∈ r.trace, Inside a b t.midpoint) ∧ Inside a b r.root) := by
  obtain ⟨valid,⟨ends,-⟩,rfl⟩ := bisect_eq_ok.mp h
  obtain ⟨last,hlast,-,heq⟩ := bisection_eq f a b valid
  have hinside (hsums : ∀ t ∈ steps f a b s, (t.left+t.right).isFinite = true) :
      (∀ t ∈ steps f a b s, Inside a b t.midpoint) ∧ Inside a b last.midpoint := by
    have hwithin := isWithin_steps ends fun t ht => hsums t (List.mem_of_mem_dropLast ht)
    have hmidpoints : ∀ t ∈ steps f a b s, Inside a b t.midpoint :=
      fun t ht => (hwithin t ht).inside_midpoint ends (hsums t ht)
    exact ⟨hmidpoints,hmidpoints last (List.mem_of_getLast? hlast)⟩
  rw [heq]
  refine ⟨⟨fun h t ht => ?_,hinside⟩,fun ha hb => hinside (isFinite_add_steps ends ha hb)⟩
  have hfinite := (h.1 t ht).1
  rw [(isComputed_steps f a b s t ht).midpoint] at hfinite
  exact isFinite_of_div rfl hfinite

theorem bisect_inside_large :
    let f : Float → Float := fun x => x-7e307
    ∃ r, bisect f 8e307 (-8e307) ⟨1,3⟩ = .ok r ∧
      r.trace.map (fun t => t.left+t.right) = [0,8e307,1.2e308] ∧
      (∀ t ∈ r.trace, Inside 8e307 (-8e307) t.midpoint) ∧ Inside 8e307 (-8e307) r.root := by
  intro f
  obtain ⟨r,hr⟩ := exists_eq_ok (m := bisect f 8e307 (-8e307) ⟨1,3⟩) (by decide +kernel)
  have hrun : (bisect f 8e307 (-8e307) ⟨1,3⟩).map (fun r =>
      r.trace.map fun t => t.left+t.right) = .ok [0,8e307,1.2e308] := by decide +kernel
  rw [hr] at hrun
  obtain ⟨-,hinside⟩ := bisect_inside f 8e307 (-8e307) ⟨1,3⟩ r hr
  exact ⟨r,hr,Except.ok.inj hrun,hinside (by decide +kernel) (by decide +kernel)⟩

/-- The sum of the ends is too large, and the search goes on at infinity. -/
theorem bisect_leaves :
    let f : Float → Float := fun x => x-1.6e308
    ∃ r, bisect f 1.5e308 1.7e308 ⟨1,2⟩ = .ok r ∧ r.trace.map (fun t => t.midpoint.isFinite) =
      [false,false] ∧ ¬Inside 1.5e308 1.7e308 r.root := by
  intro f
  obtain ⟨r,hr⟩ := exists_eq_ok (m := bisect f 1.5e308 1.7e308 ⟨1,2⟩) (by decide +kernel)
  have hrun : (bisect f 1.5e308 1.7e308 ⟨1,2⟩).map (fun r =>
      (r.trace.map fun t => t.midpoint.isFinite,decide (Inside 1.5e308 1.7e308 r.root))) =
      .ok ([false,false],false) := by decide +kernel
  rw [hr] at hrun
  simp only [Except.map,Except.ok.injEq,Prod.mk.injEq,decide_eq_false_iff_not] at hrun
  exact ⟨r,hr,hrun⟩

end Searches

end Roots
end NumericWorkbench
