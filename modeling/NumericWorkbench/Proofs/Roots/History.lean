import NumericWorkbench.Proofs.Roots.Ends
import Mathlib.Data.List.Chain
/-! What a search leaves behind is its own history, in any arithmetic: each bracket comes from the
step before it, and the result is read off the last step. -/
namespace NumericWorkbench
namespace Roots
open Arithmetic
variable {α : Type} [Arithmetic α]

namespace Step

/-- The midpoint and the value of a step are those of its bracket. -/
structure IsComputed (f : α → α) (t : Step α) : Prop where
  midpoint : t.midpoint = (t.left+t.right)/2.0
  value : t.value = f t.midpoint

variable {f : α → α} {tolerance : α} {t : Step α}

theorem isDone_iff : t.isDone tolerance = true ↔
    magnitude t.value < tolerance ∨ magnitude (t.right-t.left)/2.0 < tolerance := by
  simp [isDone]

theorem isComputed_within (f : α → α) (index : Nat) (left right : α) :
    (within f index left right).IsComputed f :=
  ⟨rfl,rfl⟩

theorem isComputed_next (f : α → α) (t : Step α) : (t.next f).IsComputed f := by
  unfold next
  split <;> exact isComputed_within f _ _ _

theorem bracket_next (f : α → α) (t : Step α) : ((t.next f).left,(t.next f).right) =
    if f t.left*t.value < 0.0 then (t.left,t.midpoint) else (t.midpoint,t.right) := by
  unfold next
  split <;> rfl

end Step

section Steps
variable {f : α → α} {tolerance : α}

theorem head?_stepsFrom (more : Nat) (t : Step α) :
    (stepsFrom f tolerance more t).head? = some t := by
  cases more with
  | zero => rfl
  | succ more =>
    rw [stepsFrom]
    split <;> rfl

theorem length_stepsFrom_le (more : Nat) (t : Step α) :
    (stepsFrom f tolerance more t).length ≤ more+1 := by
  induction more generalizing t with
  | zero => exact Nat.le_refl _
  | succ more ih =>
    rw [stepsFrom]
    split
    · simp
    · exact Nat.succ_le_succ (ih (t.next f))

theorem stepsFrom_isChain (more : Nat) (t : Step α) : (stepsFrom f tolerance more t).IsChain
    fun t u => t.isDone tolerance = false ∧ u = t.next f := by
  induction more generalizing t with
  | zero => exact List.isChain_singleton _
  | succ more ih =>
    cases hdone : t.isDone tolerance with
    | true =>
      rw [stepsFrom_done hdone]
      exact List.isChain_singleton _
    | false =>
      rw [stepsFrom_more hdone]
      refine List.isChain_cons.mpr ⟨fun u hu => ?_,ih (t.next f)⟩
      rw [head?_stepsFrom] at hu
      exact ⟨hdone,(Option.some.inj hu).symm⟩

end Steps

section Results
variable {f : α → α} {a b : α} {s : Settings α} {r : Bisection α}

theorem eq_bisection_of_bisect (h : bisect f a b s = .ok r) :
    s.validate = .ok () ∧ r = bisection f a b s := by
  obtain ⟨valid,-,hr⟩ := bisect_eq_ok.mp h
  exact ⟨valid,hr⟩

theorem index_steps (f : α → α) (a b : α) (s : Settings α) {i : Nat} {t : Step α}
    (h : (steps f a b s)[i]? = some t) : t.index = i+1 := by
  have hindex : ((steps f a b s).map Step.index)[i]? =
      (List.range' 1 (steps f a b s).length)[i]? :=
    congrArg (fun is => is[i]?) (stepsFrom_index _ _)
  obtain ⟨hi,-⟩ := List.getElem?_eq_some_iff.mp h
  rw [List.getElem?_map,h,List.getElem?_range' hi,Option.map_some,Option.some.injEq] at hindex
  omega

theorem isComputed_steps (f : α → α) (a b : α) (s : Settings α) :
    ∀ t ∈ steps f a b s, t.IsComputed f :=
  stepsFrom_keeps (fun t _ _ => Step.isComputed_next f t) _ _ (Step.isComputed_within f 1 a b)

theorem next_steps {i : Nat} {t u : Step α} (ht : (steps f a b s)[i]? = some t)
    (hu : (steps f a b s)[i+1]? = some u) : t.isDone s.tolerance = false ∧ u = t.next f := by
  obtain ⟨_,rfl⟩ := List.getElem?_eq_some_iff.mp ht
  obtain ⟨hi,rfl⟩ := List.getElem?_eq_some_iff.mp hu
  exact (stepsFrom_isChain _ _).getElem i hi

/-- The result of a search between `a` and `b` is its trace. -/
structure Bisection.IsHistory (f : α → α) (a b : α) (s : Settings α) (r : Bisection α) : Prop where
  nonempty : r.trace ≠ []
  bounded : r.trace.length ≤ s.maxIterations
  counted : ∀ i t, r.trace[i]? = some t → t.index = i+1
  computed : ∀ t ∈ r.trace, t.midpoint = (t.left+t.right)/2.0 ∧ t.value = f t.midpoint
  first : ∀ t ∈ r.trace.head?, t.left = a ∧ t.right = b
  /-- A step that is not the last one leads to the next one, -/
  next : ∀ i t u, r.trace[i]? = some t → r.trace[i+1]? = some u → (u.left,u.right) =
    if f t.left*t.value < 0.0 then (t.left,t.midpoint) else (t.midpoint,t.right)
  /-- and does not meet the tolerance. -/
  goesOn : ∀ i t u, r.trace[i]? = some t → r.trace[i+1]? = some u →
    ¬(magnitude t.value < s.tolerance ∨ magnitude (t.right-t.left)/2.0 < s.tolerance)
  converged : ∀ t ∈ r.trace.getLast?, r.converged = true ↔
    magnitude t.value < s.tolerance ∨ magnitude (t.right-t.left)/2.0 < s.tolerance
  exhausted : r.converged = false → r.trace.length = s.maxIterations
  last : ∀ t ∈ r.trace.getLast?, r.root = t.midpoint ∧ r.residual = t.value
  residual : r.residual = f r.root

theorem Bisection.isHistory (valid : s.validate = .ok ()) :
    (bisection f a b s).IsHistory f a b s := by
  obtain ⟨last,hlast,hindex,heq⟩ := bisection_eq f a b valid
  obtain ⟨-,-,hpositive⟩ := Settings.validate_eq_ok.mp valid
  have hne : steps f a b s ≠ [] := stepsFrom_ne_nil _ _
  have hcomputed := isComputed_steps f a b s
  have eq_last {t : Step α} (ht : t ∈ (steps f a b s).getLast?) : t = last :=
    Option.some.inj (ht.symm.trans hlast)
  rw [heq]
  constructor
  case nonempty => exact hne
  case bounded =>
    have hle : (steps f a b s).length ≤ s.maxIterations-1+1 := length_stepsFrom_le _ _
    change (steps f a b s).length ≤ s.maxIterations
    omega
  case counted => exact fun i t ht => index_steps f a b s ht
  case computed => exact fun t ht => ⟨(hcomputed t ht).midpoint,(hcomputed t ht).value⟩
  case first =>
    intro t ht
    obtain rfl : Step.within f 1 a b = t := Option.some.inj ((head?_stepsFrom _ _).symm.trans ht)
    exact ⟨rfl,rfl⟩
  case next =>
    intro i t u ht hu
    obtain ⟨-,rfl⟩ := next_steps ht hu
    exact Step.bracket_next f t
  case goesOn =>
    intro i t u ht hu
    rw [← Step.isDone_iff,(next_steps ht hu).1]
    exact Bool.false_ne_true
  case converged =>
    intro t ht
    obtain rfl := eq_last ht
    exact Step.isDone_iff
  case exhausted =>
    intro hdone
    have hat : (steps f a b s)[(steps f a b s).length-1]? = some last := by
      rw [← List.getLast?_eq_getElem?]
      exact hlast
    have hlength := List.length_pos_iff.mpr hne
    have hcount := index_steps f a b s hat
    rw [hindex hdone] at hcount
    change (steps f a b s).length = s.maxIterations
    omega
  case last =>
    intro t ht
    obtain rfl := eq_last ht
    exact ⟨rfl,rfl⟩
  case residual => exact (hcomputed last (List.mem_of_getLast? hlast)).value

/-- Whatever the arithmetic and the function are, the result of a search is exactly its trace. -/
theorem bisect_history (f : α → α) (a b : α) (s : Settings α) (r : Bisection α)
    (h : bisect f a b s = .ok r) : r.IsHistory f a b s := by
  obtain ⟨hvalid,rfl⟩ := eq_bisection_of_bisect h
  exact Bisection.isHistory hvalid

/-- At the second midpoint the function is undefined, and the search runs away from the change of
sign until its steps are used up. -/
theorem bisect_history_undefined :
    let f : Float → Float := fun x => x*x/x
    ∃ r, bisect f (-1) 3 ⟨0.1,4⟩ = .ok r ∧ r.IsHistory f (-1) 3 ⟨0.1,4⟩ ∧
      r.trace.map Step.midpoint = [1,0,0.5,0.75] ∧ r.converged = false := by
  intro f
  obtain ⟨r,hr⟩ := exists_eq_ok (m := bisect f (-1) 3 ⟨0.1,4⟩) (by decide +kernel)
  have hrun : (bisect f (-1) 3 ⟨0.1,4⟩).map (fun r => (r.trace.map Step.midpoint,r.converged)) =
      .ok ([1,0,0.5,0.75],false) := by decide +kernel
  rw [hr] at hrun
  obtain ⟨hmidpoints,hconverged⟩ := Prod.mk.inj (Except.ok.inj hrun)
  exact ⟨r,hr,bisect_history f (-1) 3 ⟨0.1,4⟩ r hr,hmidpoints,hconverged⟩

end Results
end Roots
end NumericWorkbench
