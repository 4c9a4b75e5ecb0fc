import NumericWorkbench.Proofs.Linear.Factorization
import NumericWorkbench.Proofs.Linear.Stages
/-! Elimination and factorization of a matrix go through the same pivots: a stage of the one is
what the other has found so far, together with what its factors still leave of the matrix. -/
namespace NumericWorkbench
namespace Linear
open Arithmetic
variable {n : Nat}

/-- Exchange the given rows with their pivot rows, one after the other. -/
def exchangeRows {α : Type} (ks pivots : List (Fin n)) (order : Vector α n) : Vector α n :=
  (ks.zip pivots).foldl (fun order e => Vec.exchange order e.1 e.2) order

@[simp] theorem exchangeRows_nil {α : Type} (pivots : List (Fin n)) (order : Vector α n) :
    exchangeRows [] pivots order = order := rfl

@[simp] theorem exchangeRows_cons {α : Type} (k p : Fin n) (ks pivots : List (Fin n))
    (order : Vector α n) : exchangeRows (k::ks) (p::pivots) order =
      exchangeRows ks pivots (Vec.exchange order k p) := rfl

section ExactArithmetic
variable {K : Type} [Field K] [LinearOrder K] [FloorRing K]

/-- An elimination and a factorization of the same matrix, both after `k` columns. -/
structure Agree (a : Mat K n n) (s : Stage K n) (t : Progress K n) (k : Nat) : Prop where
  reduced : s.Reduced k
  shaped : t.Shaped a k
  matched : t.Matched k
  matrix : ∀ i j, s.matrix.entry i j = t.factors.upper.entry i j+t.residual i j

namespace Agree
variable {a : Mat K n n} {s : Stage K n} {t : Progress K n} {k : Fin n}

theorem entry_eq (h : Agree a s t k) {i : Fin n} (hi : k ≤ i) (j : Fin n) :
    s.matrix.entry i j = t.residual i j := by
  rw [h.matrix,h.shaped.upper_later i j hi,zero_literal,zero_add]

theorem choosePivot_eq (h : Agree a s t k) :
    choosePivot (t.candidates k) k = choosePivot (s.column k) k := by
  apply choosePivot_congr
  intro i hi
  rw [Progress.get_candidates,h.shaped.left_eq,Stage.get_column,h.entry_eq hi]

theorem upper_last (h : Agree a s t k) (hk : k.val+1 = n) :
    (t.advance k k).factors.upper = s.matrix := by
  apply Mat.ext
  intro i j
  by_cases hi : i = k
  · subst hi
    rw [Progress.upper_advance h.shaped h.matched,h.entry_eq le_rfl]
  · have hlt : i < k := by omega
    rw [h.matrix,h.matched.row i j hlt,add_zero]
    simp [Progress.advance,hi]

variable [IsStrictOrderedRing K]

theorem start (a : Mat K n n) (b : Vector K n) : Agree a ⟨0,none,a,b⟩ (Progress.start a) 0 where
  reduced := ⟨rfl,by simp,by simp⟩
  shaped := Progress.shaped_start a
  matched := Progress.matched_start a
  matrix i j := by
    rw [Progress.residual_apply]
    norm_num [Progress.start,zeros,Mat.entry]

theorem matrix_advance (h : Agree a s t k) {p : Fin n}
    (hp : choosePivot (s.column k) k = .ok p) (i j : Fin n) :
    (s.next k p).matrix.entry i j =
      (t.advance k p).factors.upper.entry i j+(t.advance k p).residual i j := by
  have hkp := le_of_choosePivot hp
  rw [h.reduced.entry_next_exact hp,Stage.factor,Progress.residual_advance h.shaped h.matched,
    h.shaped.lower_advance,h.entry_eq hkp,h.entry_eq hkp]
  rcases lt_trichotomy i k with hi | rfl | hi
  · simp [Progress.advance,h.matrix,hi.ne,hi.le,hi,swap_of_lt hkp hi]
  · rw [Progress.upper_advance h.shaped h.matched,if_pos le_rfl,Equiv.swap_apply_left,
      h.entry_eq hkp]
    simp
  · have hupper : (t.advance k p).factors.upper.entry i j = 0 :=
      ((h.shaped.advance (h.choosePivot_eq.trans hp)).upper_later i j hi).trans zero_literal
    rw [hupper,if_neg hi.not_ge,if_neg hi.not_gt,if_neg hi.ne',zero_add,
      h.entry_eq (le_swap hkp hi.le),h.entry_eq (le_swap hkp hi.le)]

theorem next (h : Agree a s t k) {p : Fin n} (hp : choosePivot (s.column k) k = .ok p) :
    Agree a (s.next k p) (t.advance k p) (k+1) where
  reduced := h.reduced.next hp
  shaped := h.shaped.advance (h.choosePivot_eq.trans hp)
  matched := h.matched.advance h.shaped (h.choosePivot_eq.trans hp)
  matrix := h.matrix_advance hp

end Agree

theorem reduce_agrees [IsStrictOrderedRing K] {a : Mat K n n} (last : Fin n)
    (hlast : last.val+1 = n) (ks : List (Fin n)) (s : Stage K n) (t : Progress K n) (k : Fin n)
    (hks : ks = (List.finRange n).dropLast.drop k) (h : Agree a s t k) :
    match ((List.finRange n).drop k).foldlM Progress.next t with
    | .error e => (reduce last s ks).stop = some e
    | .ok u => (reduce last s ks).stop = none ∧
        (reduce last s ks).stages.getLast?.map Stage.matrix = some u.factors.upper ∧
        (reduce last s ks).stages.map Stage.number = ((List.finRange n).drop k).map Fin.val ∧
        ∃ pivots : List (Fin n),
          (reduce last s ks).stages.tail.map Stage.pivotRow = pivots.map some ∧
          exchangeRows ks pivots t.factors.order = u.factors.order := by
  induction ks generalizing s t k with
  | nil =>
    obtain rfl : k = last := by have hk := eq_last_of_drop_dropLast hks; omega
    have hdrop : (List.finRange n).drop (k+1) = [] := List.drop_eq_nil_of_le (by simp; omega)
    rw [drop_finRange,hdrop,List.foldlM_cons,Progress.next_eq,h.choosePivot_eq,
      choosePivot_last _ (fun i => by omega),Stage.get_column,reduce]
    by_cases hu : isUsable (s.matrix.entry k k) = true
    · rw [if_pos hu,if_pos hu]
      refine ⟨rfl,?_,?_,[],rfl,?_⟩
      · exact congrArg some (h.upper_last hlast).symm
      · exact congrArg (fun i => [i]) h.reduced.number
      · exact (Vec.exchange_self _ k).symm
    · rw [if_neg hu,if_neg hu]
      rfl
  | cons c ks ih =>
    obtain ⟨rfl,hk,hrest⟩ := of_drop_dropLast hks
    rw [drop_finRange c,List.foldlM_cons,Progress.next_eq,h.choosePivot_eq,reduce]
    cases hp : choosePivot (s.column c) c with
    | error e => rfl
    | ok p =>
      have hrun := ih (s.next c p) (t.advance c p) ⟨c+1,hk⟩ hrest (h.next hp)
      simp only [Except.map,ok_bind]
      revert hrun
      cases ((List.finRange n).drop (c+1)).foldlM Progress.next (t.advance c p) with
      | error e => exact id
      | ok u =>
        rintro ⟨hstop,hmatrix,hnumbers,pivots,hpivots,horder⟩
        refine ⟨hstop,?_,?_,p::pivots,?_,?_⟩
        · rw [reduce_stages] at hmatrix ⊢
          simpa using hmatrix
        · simp [hnumbers,h.reduced.number]
        · rw [List.tail_cons,reduce_stages,List.map_cons,hpivots]
          rfl
        · rw [exchangeRows_cons]
          exact horder

theorem reduction_agrees [IsStrictOrderedRing K] (a : Mat K n n) (b : Vector K n)
    (positive : 0 < n) :
    match factorize a with
    | .error e => (reduction a b positive).stop = some e
    | .ok f => (reduction a b positive).stop = none ∧
        (reduction a b positive).stages.getLast?.map Stage.matrix = some f.upper ∧
        (reduction a b positive).stages.map Stage.number = List.range n ∧
        ∃ pivots : List (Fin n),
          (reduction a b positive).stages.tail.map Stage.pivotRow = pivots.map some ∧
          exchangeRows (List.finRange n).dropLast pivots (Vector.ofFn id) = f.order := by
  have hlast : n-1+1 = n := by omega
  have hrun := reduce_agrees ⟨n-1,by omega⟩ hlast _ ⟨0,none,a,b⟩ (Progress.start a) ⟨0,positive⟩ rfl
    (Agree.start a b)
  have hnumbers : (List.finRange n).map Fin.val = List.range n := by simp
  rw [factorize_eq a positive]
  simp only [List.drop_zero,hnumbers] at hrun
  revert hrun
  cases (List.finRange n).foldlM Progress.next (Progress.start a) with
  | error e => exact id
  | ok u => exact id

/-- Elimination and factorization solve a system with the same result. If there is a solution, then
`U` is the matrix of the last stage, and the exchanges of rows are the same. -/
theorem solveGauss_eq_factorize_solve [IsStrictOrderedRing K] (a : Mat K n n) (b : Vector K n)
    (positive : 0 < n) :
    solveGauss a b = (factorize a >>= fun f => f.solve b) ∧
    ∀ x stages f, solveWithStages a b = .ok (x,stages) → factorize a = .ok f →
      stages.getLast?.map Stage.matrix = some f.upper ∧
      stages.map Stage.number = List.range n ∧
      ∃ pivots : List (Fin n), stages.tail.map Stage.pivotRow = pivots.map some ∧
        exchangeRows (List.finRange n).dropLast pivots (Vector.ofFn id) = f.order := by
  obtain ⟨t,ht⟩ := exists_getLast_reduction a b positive
  have hagree := reduction_agrees a b positive
  have hsolve := solveWithStages_eq positive ht
  cases hf : factorize a with
  | error e =>
    rw [hf] at hagree
    simp only [hagree] at hsolve
    exact ⟨by rw [solveGauss_eq,hsolve]; rfl,by simp⟩
  | ok f =>
    rw [hf] at hagree
    obtain ⟨hstop,hrest⟩ := hagree
    simp only [hstop] at hsolve
    obtain ⟨-,hx,-⟩ := solveWithStages_sound positive hsolve
    obtain ⟨y,hy,hunique⟩ := (isFactorization_of_factorize positive hf).solve positive b
    constructor
    · rw [solveGauss_eq,hsolve,ok_bind,hy,← (hunique _).mp hx]
      rfl
    · rintro x stages f' hok ⟨⟩
      rw [hsolve] at hok
      obtain ⟨-,rfl⟩ := Prod.mk.inj (Except.ok.inj hok)
      exact hrest

/-- Two exchanges, of which the second moves a row that was moved before. -/
theorem solveGauss_eq_factorize_solve_three :
    solveGauss (#v[#v[0,2,1],#v[1,1,1],#v[2,1,0]] : Mat ℚ 3 3) #v[5,4,4] =
      (factorize (#v[#v[0,2,1],#v[1,1,1],#v[2,1,0]] : Mat ℚ 3 3) >>= fun f => f.solve #v[5,4,4]) ∧
    ∃ pivots : List (Fin 3), [some 2,some 2] = pivots.map some ∧
      exchangeRows (List.finRange 3).dropLast pivots (Vector.ofFn id) = #v[2,0,1] := by
  have hsolved : solveWithStages (#v[#v[0,2,1],#v[1,1,1],#v[2,1,0]] : Mat ℚ 3 3) #v[5,4,4] =
      .ok (#v[1,2,1],[⟨0,none,#v[#v[0,2,1],#v[1,1,1],#v[2,1,0]],#v[5,4,4]⟩,
        ⟨1,some 2,#v[#v[2,1,0],#v[0,1/2,1],#v[0,2,1]],#v[4,2,5]⟩,
        ⟨2,some 2,#v[#v[2,1,0],#v[0,2,1],#v[0,0,3/4]],#v[4,5,3/4]⟩]) := by decide +kernel
  have hfactors : factorize (#v[#v[0,2,1],#v[1,1,1],#v[2,1,0]] : Mat ℚ 3 3) =
      .ok ⟨#v[2,0,1],#v[#v[1,0,0],#v[0,1,0],#v[1/2,1/4,1]],
        #v[#v[2,1,0],#v[0,2,1],#v[0,0,3/4]]⟩ := by decide +kernel
  obtain ⟨hsame,hlater⟩ := solveGauss_eq_factorize_solve
    (#v[#v[0,2,1],#v[1,1,1],#v[2,1,0]] : Mat ℚ 3 3) #v[5,4,4] (by decide)
  obtain ⟨-,-,hpivots⟩ := hlater _ _ _ hsolved hfactors
  exact ⟨hsame,hpivots⟩

end ExactArithmetic
end Linear
end NumericWorkbench
