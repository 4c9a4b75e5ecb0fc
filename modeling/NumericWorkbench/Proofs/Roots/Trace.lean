import NumericWorkbench.Roots.Bisection
import NumericWorkbench.Proofs.Except
/-! The trace of a search, in any arithmetic: every step follows from the one before it, and the
result is read off the last one. -/
namespace NumericWorkbench
namespace Roots
open Arithmetic
variable {α : Type} [Arithmetic α]

/-- One is negative and the other positive. -/
def Opposite (v w : α) : Prop := (v < 0.0 ∧ 0.0 < w) ∨ (0.0 < v ∧ w < 0.0)

instance (v w : α) : Decidable (Opposite v w) :=
  inferInstanceAs (Decidable ((v < 0.0 ∧ 0.0 < w) ∨ (0.0 < v ∧ w < 0.0)))

namespace Step

def within (f : α → α) (index : Nat) (left right : α) : Step α :=
  ⟨index,left,right,(left+right)/2.0,f ((left+right)/2.0)⟩

def isDone (tolerance : α) (t : Step α) : Bool :=
  magnitude t.value < tolerance || magnitude (t.right-t.left)/2.0 < tolerance

def next (f : α → α) (t : Step α) : Step α :=
  if f t.left*t.value < 0.0 then within f (t.index+1) t.left t.midpoint
  else within f (t.index+1) t.midpoint t.right

@[simp] theorem next_index (f : α → α) (t : Step α) : (t.next f).index = t.index+1 := by
  unfold next
  split <;> rfl

end Step

/-- The steps of a search from one on, with at most `more` after it. -/
def stepsFrom (f : α → α) (tolerance : α) : Nat → Step α → List (Step α)
  | 0,t => [t]
  | more+1,t => if t.isDone tolerance then [t] else t::stepsFrom f tolerance more (t.next f)

section Steps
variable {f : α → α} {tolerance : α}

theorem stepsFrom_done {t : Step α} (h : t.isDone tolerance = true) (more : Nat) :
    stepsFrom f tolerance more t = [t] := by
  cases more with
  | zero => rfl
  | succ more => rw [stepsFrom,if_pos h]

theorem stepsFrom_more {t : Step α} (h : t.isDone tolerance = false) (more : Nat) :
    stepsFrom f tolerance (more+1) t = t::stepsFrom f tolerance more (t.next f) := by
  rw [stepsFrom,if_neg (by simp [h])]

theorem stepsFrom_index (more : Nat) (t : Step α) :
    (stepsFrom f tolerance more t).map Step.index =
      List.range' t.index (stepsFrom f tolerance more t).length := by
  induction more generalizing t with
  | zero => rfl
  | succ more ih =>
    cases hdone : t.isDone tolerance with
    | true => rw [stepsFrom_done hdone]; rfl
    | false => simp [stepsFrom_more hdone,ih,List.range'_succ]

theorem stepsFrom_ne_nil (more : Nat) (t : Step α) : stepsFrom f tolerance more t ≠ [] := by
  cases more with
  | zero => simp [stepsFrom]
  | succ more =>
    rw [stepsFrom]
    split <;> simp

/-- What holds of the first step holds of all, if every step but the last one hands it over. -/
theorem stepsFrom_keeps_while {I P : Step α → Prop}
    (next : ∀ t, I t → P t → t.isDone tolerance = false → I (t.next f)) (more : Nat) (t : Step α)
    (h : I t) (hands : ∀ u ∈ (stepsFrom f tolerance more t).dropLast, P u) :
    ∀ u ∈ stepsFrom f tolerance more t, I u := by
  induction more generalizing t with
  | zero => simpa [stepsFrom] using h
  | succ more ih =>
    cases hdone : t.isDone tolerance with
    | true => simpa [stepsFrom_done hdone] using h
    | false =>
      rw [stepsFrom_more hdone] at hands ⊢
      rw [List.dropLast_cons_of_ne_nil (stepsFrom_ne_nil more (t.next f))] at hands
      intro u hu
      rcases List.mem_cons.mp hu with rfl | hu
      · exact h
      · have hnext := next t h (hands t List.mem_cons_self) hdone
        exact ih (t.next f) hnext (fun v hv => hands v (List.mem_cons_of_mem t hv)) u hu

theorem stepsFrom_keeps {I : Step α → Prop}
    (next : ∀ t, I t → t.isDone tolerance = false → I (t.next f)) (more : Nat) (t : Step α)
    (h : I t) : ∀ u ∈ stepsFrom f tolerance more t, I u :=
  stepsFrom_keeps_while (P := fun _ => True) (fun t ht _ => next t ht) more t h fun _ _ => trivial

theorem getLast_stepsFrom_more {t : Step α} (h : t.isDone tolerance = false) (more : Nat) :
    (stepsFrom f tolerance (more+1) t).getLast? =
      (stepsFrom f tolerance more (t.next f)).getLast? := by
  rw [stepsFrom_more h,List.getLast?_cons,
    List.getLast?_eq_some_getLast (stepsFrom_ne_nil more (t.next f))]
  rfl

theorem exists_getLast_stepsFrom (f : α → α) (tolerance : α) (more : Nat) (t : Step α) :
    ∃ u, (stepsFrom f tolerance more t).getLast? = some u ∧
      (u.isDone tolerance = false → u.index = t.index+more) := by
  induction more generalizing t with
  | zero => exact ⟨t,rfl,fun _ => rfl⟩
  | succ more ih =>
    cases hdone : t.isDone tolerance with
    | true => exact ⟨t,by rw [stepsFrom_done hdone]; rfl,by simp [hdone]⟩
    | false =>
      obtain ⟨u,hu,hlast⟩ := ih (t.next f)
      refine ⟨u,(getLast_stepsFrom_more hdone more).trans hu,fun h => ?_⟩
      rw [hlast h,Step.next_index]
      omega

/-- What a search returns after its steps. -/
def Bisection.ofSteps (tolerance : α) (trace : List (Step α)) (last : Step α) : Bisection α :=
  ⟨trace,last.midpoint,last.value,last.isDone tolerance⟩

theorem search_unfold (more index : Nat) (left right : α) (before : List (Step α)) :
    search f tolerance more index left right (f left) before =
      let t := Step.within f index left right
      if t.isDone tolerance = true then ⟨(t::before).reverse,t.midpoint,t.value,true⟩
      else match more with
        | 0 => ⟨(t::before).reverse,t.midpoint,t.value,false⟩
        | more+1 =>
          if f left*t.value < 0.0 then
            search f tolerance more (index+1) left t.midpoint (f left) (t::before)
          else search f tolerance more (index+1) t.midpoint right (f t.midpoint) (t::before) := by
  rw [search.eq_def]
  rfl

theorem search_eq (more index : Nat) (left right : α) (before : List (Step α)) {last : Step α}
    (h : (stepsFrom f tolerance more (.within f index left right)).getLast? = some last) :
    search f tolerance more index left right (f left) before =
      .ofSteps tolerance
        (before.reverse ++ stepsFrom f tolerance more (.within f index left right)) last := by
  induction more generalizing index left right before with
  | zero =>
    obtain rfl : Step.within f index left right = last := Option.some.inj h
    rw [search_unfold]
    cases hdone : (Step.within f index left right).isDone tolerance <;>
      simp [stepsFrom,Bisection.ofSteps,hdone]
  | succ more ih =>
    rw [search_unfold]
    cases hdone : (Step.within f index left right).isDone tolerance with
    | true =>
      rw [stepsFrom_done hdone] at h ⊢
      obtain rfl : Step.within f index left right = last := Option.some.inj h
      simp [Bisection.ofSteps,hdone]
    | false =>
      rw [getLast_stepsFrom_more hdone] at h
      rw [stepsFrom_more hdone,List.append_cons,← List.reverse_cons,if_neg (by simp [hdone])]
      unfold Step.next at h ⊢
      split at h
      · rename_i hsign
        rw [if_pos hsign]
        exact (if_pos hsign).trans (ih _ _ _ _ h)
      · rename_i hsign
        rw [if_neg hsign]
        exact (if_neg hsign).trans (ih _ _ _ _ h)

end Steps

theorem Settings.validate_eq_ok {s : Settings α} :
    s.validate = .ok () ↔
      isFinite s.tolerance = true ∧ ¬s.tolerance ≤ 0.0 ∧ s.maxIterations ≠ 0 := by
  unfold validate
  cases hfinite : isFinite s.tolerance with
  | false => simp
  | true =>
    by_cases hsign : s.tolerance ≤ 0.0
    · simp [hsign]
    · by_cases hmax : s.maxIterations = 0 <;> simp [hsign,hmax]

/-- The search between `a` and `b`, without a look at the ends. -/
def bisection (f : α → α) (a b : α) (s : Settings α) : Bisection α :=
  search f s.tolerance (s.maxIterations-1) 1 a b (f a) []

def steps (f : α → α) (a b : α) (s : Settings α) : List (Step α) :=
  stepsFrom f s.tolerance (s.maxIterations-1) (.within f 1 a b)

theorem bisection_eq (f : α → α) (a b : α) {s : Settings α} (valid : s.validate = .ok ()) :
    ∃ last, (steps f a b s).getLast? = some last ∧
      (last.isDone s.tolerance = false → last.index = s.maxIterations) ∧
      bisection f a b s = .ofSteps s.tolerance (steps f a b s) last := by
  obtain ⟨-,-,hpositive⟩ := Settings.validate_eq_ok.mp valid
  obtain ⟨last,hlast,hindex⟩ := exists_getLast_stepsFrom f s.tolerance
    (s.maxIterations-1) (.within f 1 a b)
  refine ⟨last,hlast,fun hdone => ?_,search_eq (s.maxIterations-1) 1 a b [] hlast⟩
  rw [hindex hdone]
  change 1+(s.maxIterations-1) = s.maxIterations
  omega

end Roots
end NumericWorkbench
