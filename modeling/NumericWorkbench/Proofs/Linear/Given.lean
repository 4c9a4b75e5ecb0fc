import NumericWorkbench.Proofs.Linear.Factorization
/-! Systems whose factors are given. Only one triangle of each factor is looked at, and the last
unusable pivot is reported. -/
namespace NumericWorkbench
namespace Linear
open Arithmetic
variable {n : Nat}

section AnyArithmetic
variable {α : Type} [Arithmetic α]

theorem forwardStep_congr {l l' : Mat α n n} (h : ∀ i j, j < i → l'.entry i j = l.entry i j)
    (b y : Vector α n) (i : Fin n) : forwardStep l' b i y = forwardStep l b i y := by
  have hs : sumOver (before i) (fun j => l'.entry i j*y.get j) =
      sumOver (before i) (fun j => l.entry i j*y.get j) :=
    sumOver_congr fun j hj => by rw [h i j (mem_before.mp hj)]
  rw [forwardStep,forwardStep,hs]

theorem forwardSubstitute_congr {l l' : Mat α n n} (h : ∀ i j, j < i → l'.entry i j = l.entry i j)
    (b : Vector α n) : forwardSubstitute l' b = forwardSubstitute l b := by
  change (List.finRange n).foldl (fun y i => Vec.replace y i (forwardStep l' b i y)) zeros =
    (List.finRange n).foldl (fun y i => Vec.replace y i (forwardStep l b i y)) zeros
  simp only [forwardStep_congr h]

theorem backStep_congr {u u' : Mat α n n} (h : ∀ i j, i ≤ j → u'.entry i j = u.entry i j)
    (b x : Vector α n) (i : Fin n) : backStep u' b i x = backStep u b i x := by
  have hs : sumOver (after i) (fun j => u'.entry i j*x.get j) =
      sumOver (after i) (fun j => u.entry i j*x.get j) :=
    sumOver_congr fun j hj => by rw [h i j (mem_after.mp hj).le]
  rw [backStep,backStep,hs,h i i le_rfl]

theorem backSubstituteChecked_congr {u u' : Mat α n n}
    (h : ∀ i j, i ≤ j → u'.entry i j = u.entry i j) (b : Vector α n) :
    backSubstituteChecked u' b = backSubstituteChecked u b := by
  simp only [backSubstituteChecked,backStep_congr h,h _ _ le_rfl]

theorem solveFactored_congr {p l l' u u' : Mat α n n} (b : Vector α n)
    (hl : ∀ i j, j < i → l'.entry i j = l.entry i j)
    (hu : ∀ i j, i ≤ j → u'.entry i j = u.entry i j) :
    solveFactored p l' u' b = solveFactored p l u b := by
  rcases n.eq_zero_or_pos with rfl | positive
  · rfl
  · rw [solveFactored_self positive,solveFactored_self positive,forwardSubstitute_congr hl,
      backSubstituteChecked_congr hu]

end AnyArithmetic

theorem exists_last {P : Fin n → Prop} (h : ¬∀ i, P i) : ∃ i, ¬P i ∧ ∀ j, i < j → P j := by
  obtain ⟨j,hj⟩ := not_forall.mp h
  obtain ⟨i,hi,hlast⟩ := wellFounded_gt.has_min {i | ¬P i} ⟨j,hj⟩
  exact ⟨i,hi,fun j hij => not_not.mp fun hj => hlast j hj hij⟩

section ExactArithmetic
variable {K : Type} [Field K] [LinearOrder K] [FloorRing K]

theorem solveFactored_singular {u : Mat K n n} (h : ¬∀ i, 1e-15 ≤ |u.entry i i|) (p l : Mat K n n)
    (b : Vector K n) : ∃ i, |u.entry i i| < 1e-15 ∧ (∀ j, i < j → 1e-15 ≤ |u.entry j j|) ∧
      solveFactored p l u b = .error (.singular i (u.entry i i)) := by
  obtain ⟨i,hi,hlater⟩ := exists_last h
  have hsmall := not_le.mp hi
  refine ⟨i,hsmall,hlater,?_⟩
  rw [solveFactored_self i.pos]
  exact backSubstituteChecked_error ((isUsable_eq_false_exact _).mpr hsmall)
    (fun j hj => (isUsable_exact _).mpr (hlater j hj)) _

variable [IsStrictOrderedRing K]

theorem solveFactored_solves (positive : 0 < n) {u : Mat K n n} (h : ∀ i, 1e-15 ≤ |u.entry i i|)
    (p l : Mat K n n) (b : Vector K n) : ∃ x, solveFactored p l u b = .ok x ∧
      (unitLower l*upperPart u).mulVec x.get = p.toMatrix.mulVec b.get := by
  have husable (i : Fin n) : isUsable (u.entry i i) = true := (isUsable_exact _).mpr (h i)
  refine ⟨backSubstitute u (forwardSubstitute l (p.mulVec b)),?_,?_⟩
  · rw [solveFactored_self positive,backSubstituteChecked_eq _ _ husable]
  · rw [← Matrix.mulVec_mulVec,
      upperPart_mulVec_backSubstitute _ _ fun i => ne_zero_of_isUsable (husable i),
      unitLower_mulVec_forwardSubstitute,Mat.get_mulVec]

/-- Any matrices may be given as factors. If no entry on the diagonal of `U` is close to zero, then
the system is solved that the used triangles make up, and otherwise the last such entry is reported.
The other triangles make no difference. A matrix without rows is refused. -/
theorem solveFactored_spec (p l u : Mat K n n) (b : Vector K n) :
    (n = 0 → solveFactored p l u b = .error (.dimension .empty)) ∧
    (0 < n → (∀ i, 1e-15 ≤ |u.entry i i|) → ∃ x, solveFactored p l u b = .ok x ∧
      (unitLower l*upperPart u).mulVec x.get = p.toMatrix.mulVec b.get) ∧
    ((¬∀ i, 1e-15 ≤ |u.entry i i|) → ∃ i, |u.entry i i| < 1e-15 ∧
      (∀ j, i < j → 1e-15 ≤ |u.entry j j|) ∧
      solveFactored p l u b = .error (.singular i (u.entry i i))) ∧
    ∀ l' u' : Mat K n n, (∀ i j, j < i → l'.entry i j = l.entry i j) →
      (∀ i j, i ≤ j → u'.entry i j = u.entry i j) →
      solveFactored p l' u' b = solveFactored p l u b := by
  refine ⟨?_,fun positive h => solveFactored_solves positive h p l b,
    fun h => solveFactored_singular h p l b,fun l' u' hl hu => solveFactored_congr b hl hu⟩
  rintro rfl
  rfl

/-- Without rows every condition on the diagonal holds, but there is no solution. -/
theorem solveFactored_empty :
    let e : Mat ℚ 0 0 := #v[]
    (∀ i, 1e-15 ≤ |e.entry i i|) ∧ ∀ x, solveFactored e e e (#v[] : Vector ℚ 0) ≠ .ok x := by
  intro e
  have hrefused : solveFactored e e e (#v[] : Vector ℚ 0) = .error (.dimension .empty) := rfl
  refine ⟨fun i => i.elim0,fun x h => ?_⟩
  rw [hrefused] at h
  cases h

theorem solveFactored_spec_triangles :
    let p : Mat ℚ 2 2 := #v[#v[1,2],#v[0,1]]
    let l : Mat ℚ 2 2 := #v[#v[7,8],#v[3,9]]
    let u : Mat ℚ 2 2 := #v[#v[2,5],#v[6,4]]
    let d : Mat ℚ 3 3 := #v[#v[0,1,1],#v[0,1e-16,1],#v[0,0,1]]
    (∃ x, solveFactored p l u (#v[1,2] : Vector ℚ 2) = .ok x ∧
      (unitLower l*upperPart u).mulVec x.get = p.toMatrix.mulVec (#v[1,2] : Vector ℚ 2).get) ∧
    solveFactored p #v[#v[1,0],#v[3,1]] #v[#v[2,5],#v[0,4]] (#v[1,2] : Vector ℚ 2) =
      solveFactored p l u (#v[1,2] : Vector ℚ 2) ∧
    solveFactored d d d (#v[1,2,3] : Vector ℚ 3) = .error (.singular 1 1e-16) := by
  intro p l u d
  obtain ⟨-,hsolves,-,hsame⟩ := solveFactored_spec p l u #v[1,2]
  obtain ⟨-,-,hsingular,-⟩ := solveFactored_spec d d d #v[1,2,3]
  refine ⟨hsolves (by decide) (by decide +kernel),
    hsame _ _ (by decide +kernel) (by decide +kernel),?_⟩
  obtain ⟨i,hsmall,hlater,herror⟩ := hsingular (by decide +kernel)
  have hi : i = 1 := by
    revert i
    decide +kernel
  subst hi
  exact herror

end ExactArithmetic
end Linear
end NumericWorkbench
