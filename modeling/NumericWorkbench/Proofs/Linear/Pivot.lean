import NumericWorkbench.Linear.Pivot
import NumericWorkbench.Proofs.Linear.Mat
/-! Which row is chosen as a pivot, and when no row is usable. -/
namespace NumericWorkbench
namespace Linear
open Arithmetic
variable {n : Nat}

@[simp] theorem mem_before {i k : Fin n} : i ∈ before k ↔ i < k := by simp [before]

@[simp] theorem mem_after {i k : Fin n} : i ∈ after k ↔ k < i := by simp [after]

theorem after_eq_nil {k : Fin n} (h : ∀ i, i ≤ k) : after k = [] :=
  List.eq_nil_iff_forall_not_mem.mpr fun i hi => absurd (mem_after.mp hi) (not_lt.mpr (h i))

theorem swap_of_lt {k p i : Fin n} (hp : k ≤ p) (hi : i < k) : Equiv.swap k p i = i :=
  Equiv.swap_apply_of_ne_of_ne hi.ne (hi.trans_le hp).ne

theorem le_swap {k p i : Fin n} (hp : k ≤ p) (hi : k ≤ i) : k ≤ Equiv.swap k p i := by
  rw [Equiv.swap_apply_def]
  split_ifs
  · exact hp
  · exact le_rfl
  · exact hi

theorem lt_swap {k p i j : Fin n} (hp : k ≤ p) (hjk : j < k) (hji : j < i) :
    j < Equiv.swap k p i := by
  rw [Equiv.swap_apply_def]
  split_ifs
  · exact hjk.trans_le hp
  · exact hjk
  · exact hji

theorem drop_finRange (k : Fin n) :
    (List.finRange n).drop k = k::(List.finRange n).drop (k+1) := by
  rw [List.drop_eq_getElem_cons (by simp)]
  simp

theorem eq_last_of_drop_dropLast {k : Fin n} (h : [] = (List.finRange n).dropLast.drop k) :
    k.val+1 = n := by
  have hlength := congrArg List.length h
  simp at hlength
  omega

theorem of_drop_dropLast {k c : Fin n} {ks : List (Fin n)}
    (h : c::ks = (List.finRange n).dropLast.drop k) :
    c = k ∧ k.val+1 < n ∧ ks = (List.finRange n).dropLast.drop (k+1) := by
  have hk : k.val+1 < n := by
    have hlength := congrArg List.length h
    simp at hlength
    omega
  have hdrop : (List.finRange n).dropLast.drop k = k::(List.finRange n).dropLast.drop (k+1) := by
    rw [List.drop_eq_getElem_cons (by simp; omega)]
    simp
  obtain ⟨hc,hks⟩ := List.cons.inj (h.trans hdrop)
  exact ⟨hc,hk,hks⟩

section AnyArithmetic
variable {α : Type} [Arithmetic α]

theorem isUsable_iff (x : α) : isUsable x = true ↔ ¬magnitude x < 1e-15 ∧ isNaN x = false := by
  rw [isUsable,pivotTolerance,Bool.and_eq_true,Bool.not_eq_true',Bool.not_eq_true',
    decide_eq_false_iff_not]

/-- One step of the search for the largest magnitude. -/
def larger (value : Vector α n) (best i : Fin n) : Fin n :=
  if magnitude (value.get best) < magnitude (value.get i) then i else best

theorem largestFrom_eq (value : Vector α n) (k : Fin n) :
    largestFrom value k = (after k).foldl (larger value) k := rfl

theorem larger_eq (value : Vector α n) (best i : Fin n) :
    larger value best i = i ∨ larger value best i = best := by
  unfold larger
  split <;> simp

theorem foldl_larger_mem (value : Vector α n) (is : List (Fin n)) (best : Fin n) :
    is.foldl (larger value) best ∈ best::is := by
  induction is generalizing best with
  | nil => simp
  | cons i is ih =>
    rw [List.foldl_cons]
    rcases List.mem_cons.mp (ih (larger value best i)) with h | h
    · rw [h]
      rcases larger_eq value best i with hl | hl <;> simp [hl]
    · simp [h]

theorem le_largestFrom (value : Vector α n) (k : Fin n) : k ≤ largestFrom value k := by
  rcases List.mem_cons.mp (foldl_larger_mem value (after k) k) with h | h
  · exact h.ge
  · exact (mem_after.mp h).le

theorem largestFrom_congr {value value' : Vector α n} {k : Fin n}
    (h : ∀ i, k ≤ i → value.get i = value'.get i) : largestFrom value k = largestFrom value' k := by
  have hfold (is : List (Fin n)) (his : ∀ i ∈ is, k ≤ i) (best : Fin n) (hbest : k ≤ best) :
      is.foldl (larger value) best = is.foldl (larger value') best := by
    induction is generalizing best with
    | nil => rfl
    | cons i is ih =>
      have hi := his i (by simp)
      have hs : larger value best i = larger value' best i := by
        simp only [larger,h best hbest,h i hi]
      rw [List.foldl_cons,List.foldl_cons,hs]
      refine ih (fun j hj => his j (by simp [hj])) _ ?_
      unfold larger
      split <;> assumption
  exact hfold (after k) (fun i hi => (mem_after.mp hi).le) k le_rfl

theorem largestFrom_last (value : Vector α n) {k : Fin n} (h : ∀ i, i ≤ k) :
    largestFrom value k = k := by
  rw [largestFrom_eq,after_eq_nil h]
  rfl

theorem choosePivot_eq_ok {candidates : Vector α n} {k p : Fin n} :
    choosePivot candidates k = .ok p ↔
      largestFrom candidates k = p ∧ isUsable (candidates.get p) = true := by
  simp only [choosePivot]
  split <;> rename_i h <;> simp <;> rintro rfl <;> simpa using h

theorem le_of_choosePivot {candidates : Vector α n} {k p : Fin n}
    (h : choosePivot candidates k = .ok p) : k ≤ p :=
  (choosePivot_eq_ok.mp h).1 ▸ le_largestFrom candidates k

theorem isUsable_of_choosePivot {candidates : Vector α n} {k p : Fin n}
    (h : choosePivot candidates k = .ok p) : isUsable (candidates.get p) = true :=
  (choosePivot_eq_ok.mp h).2

theorem choosePivot_eq_error {candidates : Vector α n} {k : Fin n} {e : Error α} :
    choosePivot candidates k = .error e ↔
      isUsable (candidates.get (largestFrom candidates k)) = false ∧
        e = .singular k (candidates.get (largestFrom candidates k)) := by
  simp only [choosePivot]
  split <;> rename_i h
  · simp [h]
  · simp only [Bool.not_eq_true] at h
    simp [h,eq_comm]

theorem choosePivot_last (candidates : Vector α n) {k : Fin n} (h : ∀ i, i ≤ k) :
    choosePivot candidates k =
      if isUsable (candidates.get k) then .ok k else .error (.singular k (candidates.get k)) := by
  rw [choosePivot,largestFrom_last candidates h]

theorem choosePivot_congr {candidates candidates' : Vector α n} {k : Fin n}
    (h : ∀ i, k ≤ i → candidates.get i = candidates'.get i) :
    choosePivot candidates k = choosePivot candidates' k := by
  simp only [choosePivot,← largestFrom_congr h,← h _ (le_largestFrom candidates k)]

end AnyArithmetic

section ExactArithmetic
variable {K : Type} [Field K] [LinearOrder K] [FloorRing K]

theorem isUsable_exact (x : K) : isUsable x = true ↔ 1e-15 ≤ |x| := by
  have h : isUsable x = true ↔ decide (magnitude x < pivotTolerance) = false := by
    simp [isUsable]
  exact h.trans (decide_eq_false_iff_not.trans not_lt)

theorem isUsable_eq_false_exact (x : K) : isUsable x = false ↔ |x| < 1e-15 := by
  rw [← Bool.not_eq_true,isUsable_exact,not_le]

theorem ne_zero_of_isUsable [IsStrictOrderedRing K] {x : K} (h : isUsable x = true) : x ≠ 0 := by
  rintro rfl
  have h15 := (isUsable_exact (0 : K)).mp h
  norm_num at h15

theorem abs_le_largestFrom (value : Vector K n) (k i : Fin n) (hi : k ≤ i) :
    |value.get i| ≤ |value.get (largestFrom value k)| := by
  have hfold (is : List (Fin n)) (best : Fin n) :
      ∀ i ∈ best::is, |value.get i| ≤ |value.get (is.foldl (larger value) best)| := by
    induction is generalizing best with
    | nil => simp
    | cons j is ih =>
      have hbest : |value.get best| ≤ |value.get (larger value best j)| := by
        unfold larger
        split
        · exact le_of_lt ‹_›
        · exact le_rfl
      have hj : |value.get j| ≤ |value.get (larger value best j)| := by
        unfold larger
        split
        · exact le_rfl
        · exact not_lt.mp ‹_›
      have hstep := ih (larger value best j)
      intro i hi
      rw [List.foldl_cons]
      rcases List.mem_cons.mp hi with rfl | hi
      · exact hbest.trans (hstep _ (by simp))
      rcases List.mem_cons.mp hi with rfl | hi
      · exact hj.trans (hstep _ (by simp))
      · exact hstep i (by simp [hi])
  rw [largestFrom_eq]
  rcases hi.eq_or_lt with rfl | hlt
  · exact hfold _ _ _ (by simp)
  · exact hfold _ _ i (by simp [hlt])

end ExactArithmetic
end Linear
end NumericWorkbench
