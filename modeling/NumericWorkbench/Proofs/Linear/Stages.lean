import NumericWorkbench.Number.Literal
import NumericWorkbench.Proofs.Linear.Elimination
/-! The stages of an elimination. Keeping them changes nothing, and what is done at one stage is
left alone by all later ones, whatever the arithmetic is. -/
namespace NumericWorkbench
namespace Linear
open Arithmetic
variable {n : Nat} {α : Type}

namespace Stage

/-- The rows that are done at the first stage are the same at the second, which is not earlier. -/
def Continues (s t : Stage α n) : Prop :=
  s.number ≤ t.number ∧ ∀ i : Fin n, i.val < s.number →
    s.matrix.get i = t.matrix.get i ∧ s.rhs.get i = t.rhs.get i

theorem Continues.trans {s t u : Stage α n} (hst : s.Continues t) (htu : t.Continues u) :
    s.Continues u := by
  refine ⟨hst.1.trans htu.1,fun i hi => ?_⟩
  obtain ⟨hmatrix,hrhs⟩ := hst.2 i hi
  obtain ⟨hmatrix',hrhs'⟩ := htu.2 i (hi.trans_le hst.1)
  exact ⟨hmatrix.trans hmatrix',hrhs.trans hrhs'⟩

instance : IsTrans (Stage α n) Continues := ⟨fun _ _ _ => Continues.trans⟩

end Stage

variable [Arithmetic α]

theorem reduce_stages (last : Fin n) (s : Stage α n) (ks : List (Fin n)) :
    (reduce last s ks).stages = s::(reduce last s ks).stages.tail := by
  cases ks with
  | nil => rfl
  | cons k ks =>
    rw [reduce]
    cases choosePivot (s.column k) k <;> rfl

section Transparency

theorem eliminate_eq (last : Fin n) (ks : List (Fin n)) (s t : Stage α n)
    (ht : (reduce last s ks).stages.getLast? = some t) :
    eliminate last s.matrix s.rhs ks = match (reduce last s ks).stop with
      | none => .ok (t.matrix,t.rhs)
      | some e => .error e := by
  induction ks generalizing s with
  | nil =>
    obtain rfl : s = t := by simpa [reduce] using ht
    simp only [eliminate,reduce]
    split <;> rfl
  | cons k ks ih =>
    have hcolumn : Vector.ofFn (fun i => s.matrix.entry i k) = s.column k := rfl
    rw [eliminate,hcolumn]
    rw [reduce] at ht ⊢
    cases hp : choosePivot (s.column k) k with
    | error e => rfl
    | ok p =>
      simp only [hp] at ht
      rw [reduce_stages,List.getLast?_cons_cons,← reduce_stages] at ht
      exact ih (s.next k p) ht

theorem solveGauss_eq {m p : Nat} (a : Mat α m n) (b : Vector α p) :
    solveGauss a b = (solveWithStages a b).map Prod.fst := by
  unfold solveGauss solveWithStages
  cases checkSystem m n p with
  | error misfit => rfl
  | ok fits =>
    obtain ⟨square,height,positive⟩ := fits
    obtain ⟨t,ht⟩ := exists_getLast_reduction (a.cast square) (b.cast height) positive
    have hplace : eliminate ⟨n-1,by omega⟩ (a.cast square) (b.cast height)
        (List.finRange n).dropLast =
          match (reduction (a.cast square) (b.cast height) positive).stop with
          | none => .ok (t.matrix,t.rhs)
          | some e => .error e := eliminate_eq _ _ ⟨0,none,_,_⟩ t ht
    simp only [ht,hplace]
    cases (reduction (a.cast square) (b.cast height) positive).stop <;> rfl

end Transparency

namespace Stage

theorem continues_next {s : Stage α n} {k p : Fin n} (number : s.number = k)
    (hp : choosePivot (s.column k) k = .ok p) : s.Continues (s.next k p) := by
  have hkp := le_of_choosePivot hp
  refine ⟨by simp [next,number],fun i hi => ?_⟩
  have hik : i < k := by omega
  constructor
  · apply Vec.ext
    intro j
    have hentry := s.entry_next k p i j
    rw [if_pos hik.le,swap_of_lt hkp hik] at hentry
    exact hentry.symm
  · rw [rhs_next,if_pos hik.le,swap_of_lt hkp hik]

end Stage

theorem reduce_continues (last : Fin n) (ks : List (Fin n)) (s : Stage α n) (k : Fin n)
    (hks : ks = (List.finRange n).dropLast.drop k) (number : s.number = k) :
    (reduce last s ks).stages.IsChain Stage.Continues := by
  induction ks generalizing s k with
  | nil => simp [reduce]
  | cons c ks ih =>
    obtain ⟨rfl,hk,hrest⟩ := of_drop_dropLast hks
    rw [reduce]
    cases hp : choosePivot (s.column c) c with
    | error e => simp
    | ok p =>
      have hchain := ih (s.next c p) ⟨c+1,hk⟩ hrest rfl
      simp only
      rw [reduce_stages] at hchain ⊢
      exact List.isChain_cons_cons.mpr ⟨Stage.continues_next number hp,hchain⟩

theorem reduce_numbers (last : Fin n) (ks : List (Fin n)) (s : Stage α n) (k : Fin n)
    (hks : ks = (List.finRange n).dropLast.drop k) (number : s.number = k)
    (hstop : (reduce last s ks).stop = none) :
    (reduce last s ks).stages.map Stage.number = (List.range n).drop k := by
  induction ks generalizing s k with
  | nil =>
    have hk := eq_last_of_drop_dropLast hks
    have hdrop : (List.range n).drop k = [k.val] := by
      rw [List.drop_eq_getElem_cons (by simp),List.drop_eq_nil_of_le (by simp; omega)]
      simp
    simp [reduce,number,hdrop]
  | cons c ks ih =>
    obtain ⟨rfl,hk,hrest⟩ := of_drop_dropLast hks
    have hdrop : (List.range n).drop c = c.val::(List.range n).drop (c+1) := by
      rw [List.drop_eq_getElem_cons (by simp)]
      simp
    rw [reduce] at hstop ⊢
    cases hp : choosePivot (s.column c) c with
    | error e => simp [hp] at hstop
    | ok p =>
      simp only [hp] at hstop
      simp only [List.map_cons,number,hdrop,ih (s.next c p) ⟨c+1,hk⟩ hrest rfl hstop]

/-- All stages of an elimination that came to its end: they are numbered from zero, begin with the
system itself, and keep what is done, the zeros below the pivots and the rows above. -/
structure IsElimination (a : Mat α n n) (b : Vector α n) (stages : List (Stage α n)) : Prop where
  numbers : stages.map Stage.number = List.range n
  first : stages.head? = some ⟨0,none,a,b⟩
  pivot : ∀ s ∈ stages, 0 < s.number → ∃ p : Fin n, s.pivotRow = some p ∧ s.number-1 ≤ p.val
  cleared : ∀ s ∈ stages, ∀ i j : Fin n, j.val < s.number → j < i → s.matrix.entry i j = 0.0
  finished : stages.Pairwise fun s t => ∀ i : Fin n, i.val < s.number →
    s.matrix.get i = t.matrix.get i ∧ s.rhs.get i = t.rhs.get i

theorem reduction_pivots (a : Mat α n n) (b : Vector α n) (positive : 0 < n) :
    (reduction a b positive).Keeps fun k s =>
      s.Reduced k ∧ (0 < k → ∃ p : Fin n, s.pivotRow = some p ∧ k-1 ≤ p.val) := by
  apply reduction_keeps
  · exact ⟨⟨rfl,by simp,by simp⟩,by simp⟩
  · rintro k p s ⟨hreduced,-⟩ hp
    exact ⟨hreduced.next hp,fun _ => ⟨p,rfl,le_of_choosePivot hp⟩⟩

theorem isElimination_reduction {a : Mat α n n} {b : Vector α n} {positive : 0 < n}
    (hstop : (reduction a b positive).stop = none) :
    IsElimination a b (reduction a b positive).stages where
  numbers := reduce_numbers _ _ ⟨0,none,a,b⟩ ⟨0,positive⟩ rfl rfl hstop
  first := by
    rw [reduction,reduce_stages]
    rfl
  pivot s hs hnumber := by
    obtain ⟨k,hreduced,hpivot⟩ := (reduction_pivots a b positive).stages s hs
    rw [hreduced.number] at hnumber ⊢
    exact hpivot hnumber
  cleared s hs i j hj hij := by
    obtain ⟨k,hreduced,-⟩ := (reduction_pivots a b positive).stages s hs
    rw [hreduced.number] at hj
    exact hreduced.zero i j hj hij
  finished := by
    have hchain := reduce_continues ⟨n-1,by omega⟩ _ ⟨0,none,a,b⟩ ⟨0,positive⟩ rfl rfl
    exact (List.isChain_iff_pairwise.mp hchain).imp And.right

theorem fits_of_solveWithStages {m p : Nat} {a : Mat α m n} {b : Vector α p}
    {result : Vector α n × List (Stage α n)} (h : solveWithStages a b = .ok result) :
    m = n ∧ p = n ∧ 0 < n := by
  unfold solveWithStages at h
  cases hfits : checkSystem m n p with
  | error misfit => simp [hfits] at h
  | ok fits => exact fits.down

/-- A solution alone is the one that is found with all stages, errors included. If there is one,
then the system is square, the stages are those of a whole elimination, and the solution comes from
the last of them. -/
theorem solveGauss_stages {m p : Nat} (a : Mat α m n) (b : Vector α p) :
    solveGauss a b = (solveWithStages a b).map Prod.fst ∧
    ∀ x stages, solveWithStages a b = .ok (x,stages) → ∃ (square : m = n) (height : p = n),
      IsElimination (a.cast square) (b.cast height) stages ∧
      ∃ s, stages.getLast? = some s ∧ x = backSubstitute s.matrix s.rhs := by
  refine ⟨solveGauss_eq a b,fun x stages h => ?_⟩
  obtain ⟨rfl,rfl,positive⟩ := fits_of_solveWithStages h
  refine ⟨rfl,rfl,?_⟩
  obtain ⟨t,ht⟩ := exists_getLast_reduction a b positive
  rw [solveWithStages_eq positive ht] at h
  cases hstop : (reduction a b positive).stop with
  | some e => simp [hstop] at h
  | none =>
    simp only [hstop,Except.ok.injEq,Prod.mk.injEq] at h
    obtain ⟨rfl,rfl⟩ := h
    exact ⟨isElimination_reduction hstop,t,ht,rfl⟩

/-- A system with an infinite entry, which leaves an infinite pivot and a solution that is
undefined, but stages in order. -/
theorem solveGauss_stages_infinite :
    let a : Mat Float 3 3 := #v[#v[0.1,1,Number.infinity],#v[0.3,0.7,0.2],#v[0.1,0.5,0.9]]
    ∃ x stages, solveWithStages a #v[1,1,1] = .ok (x,stages) ∧ (x.get 0).isNaN = true ∧
      solveGauss a #v[1,1,1] = .ok x ∧ IsElimination a #v[1,1,1] stages ∧
      stages.map Stage.pivotRow = [none,some 1,some 1] := by
  intro a
  obtain ⟨⟨x,stages⟩,hok⟩ := exists_eq_ok (m := solveWithStages a #v[1,1,1]) (by decide +kernel)
  have hrun : (solveWithStages a #v[1,1,1]).map (fun r => ((r.1.get 0).isNaN,
      r.2.map Stage.pivotRow)) = .ok (true,[none,some 1,some 1]) := by decide +kernel
  rw [hok] at hrun
  obtain ⟨hundefined,hpivots⟩ := Prod.mk.inj (Except.ok.inj hrun)
  obtain ⟨hsame,hall⟩ := solveGauss_stages a #v[1,1,1]
  obtain ⟨_,_,hstages,-⟩ := hall x stages hok
  exact ⟨x,stages,hok,hundefined,by rw [hsame,hok]; rfl,hstages,hpivots⟩

end Linear
end NumericWorkbench
