import Mathlib
import NumericWorkbench.Linear.Factorization
import NumericWorkbench.Proofs.Linear.Mat
/-! The cycles of an order of rows: walks along the order meet every index once, and their lengths
give the sign of the permutation. -/
namespace NumericWorkbench
namespace Linear
variable {n : Nat} {order : Vector (Fin n) n}

def mark (is : List (Fin n)) (visited : Vector Bool n) : Vector Bool n :=
  is.foldl (fun v i => Vec.replace v i true) visited

theorem get_mark (is : List (Fin n)) (visited : Vector Bool n) (j : Fin n) :
    (mark is visited).get j = true ↔ j ∈ is ∨ visited.get j = true := by
  induction is generalizing visited with
  | nil => simp [mark]
  | cons i is ih =>
    rw [mark,List.foldl_cons,← mark,ih,Vec.get_replace]
    by_cases h : j = i <;> simp [h]

/-- A walk from an index marks what it meets, until it meets a visited index. Nothing limits the
number of its steps. -/
inductive Walk (order : Vector (Fin n) n) : Fin n → Vector Bool n → List (Fin n) → Prop
  | stop {i : Fin n} {visited : Vector Bool n} : visited.get i = true → Walk order i visited []
  | step {i : Fin n} {visited : Vector Bool n} {is : List (Fin n)} : visited.get i = false →
      Walk order (order.get i) (Vec.replace visited i true) is → Walk order i visited (i::is)

/-- Walks from all starts in turn that no walk before them has visited. -/
inductive Walks (order : Vector (Fin n) n) :
    List (Fin n) → Vector Bool n → List (List (Fin n)) → Prop
  | nil {visited : Vector Bool n} : Walks order [] visited []
  | skip {i : Fin n} {starts : List (Fin n)} {visited : Vector Bool n} {cs : List (List (Fin n))} :
      visited.get i = true → Walks order starts visited cs → Walks order (i::starts) visited cs
  | walk {i : Fin n} {starts c : List (Fin n)} {visited : Vector Bool n}
      {cs : List (List (Fin n))} :
      visited.get i = false → Walk order i visited c → Walks order starts (mark c visited) cs →
      Walks order (i::starts) visited (c::cs)

theorem exists_walk (order : Vector (Fin n) n) (i : Fin n) (visited : Vector Bool n) :
    ∃ is, Walk order i visited is := by
  induction hk : (Finset.univ.filter fun j => visited.get j = false).card
    using Nat.strongRecOn generalizing i visited with
  | ind k ih =>
    cases hi : visited.get i with
    | true => exact ⟨[],.stop hi⟩
    | false =>
      have hlt : (Finset.univ.filter fun j => (Vec.replace visited i true).get j = false).card < k := by
        rw [← hk]
        refine Finset.card_lt_card (Finset.ssubset_iff_of_subset ?_ |>.mpr ⟨i,by simp [hi],by simp⟩)
        intro j hj
        by_cases h : j = i <;> simp_all
      obtain ⟨is,his⟩ := ih _ hlt (order.get i) (Vec.replace visited i true) rfl
      exact ⟨i::is,.step hi his⟩

theorem exists_walks (order : Vector (Fin n) n) (starts : List (Fin n)) (visited : Vector Bool n) :
    ∃ cs, Walks order starts visited cs := by
  induction starts generalizing visited with
  | nil => exact ⟨[],.nil⟩
  | cons i starts ih =>
    cases hi : visited.get i with
    | true =>
      obtain ⟨cs,hcs⟩ := ih visited
      exact ⟨cs,.skip hi hcs⟩
    | false =>
      obtain ⟨c,hc⟩ := exists_walk order i visited
      obtain ⟨cs,hcs⟩ := ih (mark c visited)
      exact ⟨c::cs,.walk hi hc hcs⟩

namespace Walk
variable {i : Fin n} {visited : Vector Bool n} {is : List (Fin n)}

theorem unvisited (h : Walk order i visited is) : ∀ j ∈ is, visited.get j = false := by
  induction h with
  | stop => simp
  | step hi _ ih =>
    refine List.forall_mem_cons.mpr ⟨hi,fun j hj => ?_⟩
    have hj := ih j hj
    rw [Vec.get_replace] at hj
    split_ifs at hj
    exact hj

theorem nodup (h : Walk order i visited is) : is.Nodup := by
  induction h with
  | stop => exact List.nodup_nil
  | step hi h ih =>
    refine List.nodup_cons.mpr ⟨fun hmem => ?_,ih⟩
    have hfalse := h.unvisited _ hmem
    simp at hfalse

theorem length_le (h : Walk order i visited is) : is.length ≤ n := by
  simpa using h.nodup.length_le_card

theorem walkCycle_eq (h : Walk order i visited is) {fuel : Nat} (hfuel : is.length ≤ fuel) :
    walkCycle order fuel i visited = (is.length,mark is visited) := by
  induction h generalizing fuel with
  | stop hi => cases fuel <;> simp [walkCycle,hi,mark]
  | step hi _ ih =>
    obtain _ | fuel := fuel
    · simp at hfuel
    · simp [walkCycle,hi,ih (by simpa using hfuel),mark]

theorem head?_eq (h : Walk order i visited is) (hi : visited.get i = false) :
    is.head? = some i := by
  cases h with
  | stop hi' => simp [hi] at hi'
  | step => rfl

theorem follows (h : Walk order i visited is) : is.IsChain fun i j => order.get i = j := by
  induction h with
  | stop => exact .nil
  | @step i visited is hi h ih =>
    cases h with
    | stop => exact .singleton _
    | step => exact .cons_cons rfl ih

theorem get_last (h : Walk order i visited is) (j : Fin n) (hj : j ∈ is.getLast?) :
    visited.get (order.get j) = true ∨ order.get j ∈ is := by
  induction h with
  | stop => simp at hj
  | @step i visited is hi h ih =>
    cases h with
    | stop hnext =>
      obtain rfl : i = j := by simpa using hj
      rw [Vec.get_replace] at hnext
      split_ifs at hnext with heq
      · exact .inr (by simp [heq])
      · exact .inl hnext
    | step hnext h =>
      have hlast := ih (by simpa using hj)
      rw [Vec.get_replace] at hlast
      split_ifs at hlast with heq
      · exact .inr (by simp [heq])
      · exact hlast.imp_right (List.mem_cons_of_mem _)

/-- A walk that starts among complete cycles is a complete cycle itself. -/
theorem formPerm_apply (h : Walk order i visited is) (injective : Function.Injective order.get)
    (closed : ∀ j, visited.get (order.get j) = visited.get j) (j : Fin n) (hj : j ∈ is) :
    is.formPerm j = order.get j := by
  have hpositive : 0 < is.length := List.length_pos_of_mem hj
  obtain ⟨k,hk,rfl⟩ := List.mem_iff_getElem.mp hj
  rw [List.formPerm_apply_getElem is h.nodup]
  have hchain := List.isChain_iff_getElem.mp h.follows
  by_cases hlast : k+1 < is.length
  · simp only [Nat.mod_eq_of_lt hlast]
    exact (hchain k hlast).symm
  · have hmem : order.get is[k] ∈ is := by
      refine (h.get_last is[k] ?_).resolve_left fun hvisited => ?_
      · rw [List.getLast?_eq_getElem?]
        simp [show is.length-1 = k by omega]
      · rw [closed,h.unvisited is[k] hj] at hvisited
        cases hvisited
    obtain ⟨m,hm,heq⟩ := List.mem_iff_getElem.mp hmem
    obtain _ | m := m
    · simp only [show k+1 = is.length by omega,Nat.mod_self]
      exact heq
    · have hback : is[m] = is[k] := injective ((hchain m hm).trans heq)
      have hmk := (List.Nodup.getElem_inj_iff h.nodup).mp hback
      omega

end Walk

theorem sign_formPerm {c : List (Fin n)} (nodup : c.Nodup) (nonempty : c ≠ []) :
    Equiv.Perm.sign c.formPerm = if c.length % 2 = 0 then -1 else 1 := by
  induction c with
  | nil => exact absurd rfl nonempty
  | cons i c ih =>
    cases c with
    | nil => simp
    | cons j c =>
      have hij : i ≠ j := fun h => (List.nodup_cons.mp nodup).1 (by simp [h])
      rw [List.formPerm_cons_cons,map_mul,Equiv.Perm.sign_swap hij,ih nodup.of_cons (by simp)]
      simp only [List.length_cons]
      split_ifs <;> first | rfl | omega

namespace Walks
variable {starts : List (Fin n)} {visited : Vector Bool n} {cs : List (List (Fin n))}

theorem unvisited (h : Walks order starts visited cs) : ∀ j ∈ cs.flatten, visited.get j = false := by
  induction h with
  | nil => simp
  | skip _ _ ih => exact ih
  | @walk i starts c visited cs _ hc _ ih =>
    intro j hj
    rw [List.flatten_cons,List.mem_append] at hj
    rcases hj with hj | hj
    · exact hc.unvisited j hj
    · have hfalse := ih j hj
      rw [← Bool.not_eq_true,get_mark,not_or] at hfalse
      simpa using hfalse.2

theorem nodup (h : Walks order starts visited cs) : cs.flatten.Nodup := by
  induction h with
  | nil => exact List.nodup_nil
  | skip _ _ ih => exact ih
  | @walk i starts c visited cs _ hc hcs ih =>
    rw [List.flatten_cons,List.nodup_append']
    refine ⟨hc.nodup,ih,fun j hj hj' => ?_⟩
    have hfalse := hcs.unvisited j hj'
    simp [(get_mark c visited j).mpr (.inl hj)] at hfalse

theorem complete (h : Walks order starts visited cs) (j : Fin n) (hj : j ∈ starts) :
    j ∈ cs.flatten ∨ visited.get j = true := by
  induction h with
  | nil => simp at hj
  | skip hi _ ih =>
    rcases List.mem_cons.mp hj with rfl | hj
    · exact .inr hi
    · exact ih hj
  | @walk i starts c visited cs hi hc hcs ih =>
    rw [List.flatten_cons,List.mem_append]
    rcases List.mem_cons.mp hj with rfl | hj
    · exact .inl (.inl (List.mem_of_mem_head? (hc.head?_eq hi)))
    · have hmet := ih hj
      rw [get_mark] at hmet
      tauto

theorem flatten_perm (h : Walks order (List.finRange n) (Vector.replicate n false) cs) :
    cs.flatten.Perm (List.finRange n) := by
  rw [List.perm_ext_iff_of_nodup h.nodup (List.nodup_finRange n)]
  intro j
  have hmet := h.complete j (List.mem_finRange j)
  simpa using hmet

end Walks

/-- The step of the search for cycles: the walk from an unvisited start changes the sign if its
length is even. -/
def countCycle (order : Vector (Fin n) n) (s : Bool × Vector Bool n) (start : Fin n) :
    Bool × Vector Bool n :=
  if s.2.get start then s
  else
    (if (walkCycle order n start s.2).1 % 2 = 0 then !s.1 else s.1,(walkCycle order n start s.2).2)

theorem isOdd_eq (order : Vector (Fin n) n) :
    isOdd order =
      ((List.finRange n).foldl (countCycle order) (false,Vector.replicate n false)).1 := rfl

/-- The visited indices are complete cycles, and `odd` says whether these are an odd permutation. -/
def Counted (order : Vector (Fin n) n) (s : Bool × Vector Bool n) : Prop :=
  ∃ σ : Equiv.Perm (Fin n), (∀ i, σ i = if s.2.get i then order.get i else i) ∧
    Equiv.Perm.sign σ = if s.1 then -1 else 1

namespace Counted
variable {s : Bool × Vector Bool n}

theorem start (order : Vector (Fin n) n) : Counted order (false,Vector.replicate n false) :=
  ⟨1,by simp,by simp⟩

theorem closed (h : Counted order s) (injective : Function.Injective order.get) (i : Fin n) :
    s.2.get (order.get i) = s.2.get i := by
  obtain ⟨σ,hσ,-⟩ := h
  cases hi : s.2.get i with
  | true =>
    by_contra hnext
    rw [Bool.not_eq_true] at hnext
    have heq : σ (order.get i) = σ i := by simp [hσ,hi,hnext]
    rw [σ.injective heq,hi] at hnext
    cases hnext
  | false =>
    by_contra hnext
    rw [Bool.not_eq_false] at hnext
    obtain ⟨j,hj⟩ := σ.surjective (order.get i)
    rw [hσ] at hj
    split_ifs at hj with hvisited
    · rw [injective hj,hi] at hvisited
      cases hvisited
    · exact hvisited (hj ▸ hnext)

theorem walk (h : Counted order s) (injective : Function.Injective order.get) {i : Fin n}
    {c : List (Fin n)} (hi : s.2.get i = false) (hc : Walk order i s.2 c) :
    Counted order (if c.length % 2 = 0 then !s.1 else s.1,mark c s.2) := by
  have hclosed := h.closed injective
  have hcycle := hc.formPerm_apply injective hclosed
  have hne : c ≠ [] := fun hnil => by simpa [hnil] using hc.head?_eq hi
  obtain ⟨σ,hσ,hsign⟩ := h
  refine ⟨σ*c.formPerm,fun j => ?_,?_⟩
  · rw [Equiv.Perm.mul_apply]
    by_cases hj : j ∈ c
    · have hunvisited := hc.unvisited j hj
      rw [hcycle j hj,hσ,hclosed,hunvisited,if_pos ((get_mark _ _ _).mpr (.inl hj))]
      rfl
    · rw [List.formPerm_apply_of_notMem hj,hσ]
      simp [get_mark,hj]
  · rw [map_mul,hsign,sign_formPerm hc.nodup hne]
    cases s.1 <;> split_ifs <;> simp_all

theorem countCycle (h : Counted order s) (injective : Function.Injective order.get) (i : Fin n) :
    Counted order (countCycle order s i) := by
  obtain ⟨c,hc⟩ := exists_walk order i s.2
  unfold Linear.countCycle
  split
  · exact h
  · rename_i hi
    rw [hc.walkCycle_eq hc.length_le]
    exact h.walk injective (by simpa using hi) hc

end Counted

/-- The search runs through the walks, and each of even length changes the sign. -/
theorem foldl_countCycle {starts : List (Fin n)} {s : Bool × Vector Bool n}
    {cs : List (List (Fin n))} (h : Walks order starts s.2 cs) :
    starts.foldl (countCycle order) s =
      (s.1 ^^ decide (Odd (cs.countP fun c => c.length % 2 = 0)),mark cs.flatten s.2) := by
  generalize hv : s.2 = visited at h
  induction h generalizing s with
  | nil => simp [mark,← hv]
  | skip hi _ ih =>
    rw [List.foldl_cons,countCycle,if_pos (hv ▸ hi)]
    exact ih hv
  | @walk i starts c visited cs hi hc _ ih =>
    rw [List.foldl_cons,countCycle,if_neg (by simp [hv,hi]),hv,hc.walkCycle_eq hc.length_le,ih rfl]
    rw [List.flatten_cons,mark,mark,mark,List.foldl_append,List.countP_cons]
    congr 1
    by_cases heven : c.length % 2 = 0 <;> cases s.1 <;> simp [heven,Nat.odd_add_one,-Nat.not_odd_iff_even]

theorem counted_search (injective : Function.Injective order.get) :
    Counted order ((List.finRange n).foldl (countCycle order) (false,Vector.replicate n false)) :=
  List.foldlRecOn _ _ (.start order) fun _ hs i _ => hs.countCycle injective i

/-- The pairs of rows that an order puts the other way round. -/
def inversions (order : Vector (Fin n) n) : Nat :=
  (Finset.univ.filter fun p : Fin n × Fin n => p.1 < p.2 ∧ order.get p.2 < order.get p.1).card

noncomputable def toPerm (injective : Function.Injective order.get) : Equiv.Perm (Fin n) :=
  Equiv.ofBijective order.get (Finite.injective_iff_bijective.mp injective)

theorem sign_toPerm_eq_inversions (injective : Function.Injective order.get) :
    Equiv.Perm.sign (toPerm injective) = (-1)^inversions order := by
  rw [Equiv.Perm.sign_eq_prod_prod_Ioi,inversions,← Finset.prod_const,Finset.prod_filter,
    Fintype.prod_prod_type]
  refine Finset.prod_congr rfl fun i _ => ?_
  rw [← Finset.filter_lt_eq_Ioi,Finset.prod_filter]
  refine Finset.prod_congr rfl fun j _ => ?_
  by_cases hij : i < j
  · have hne : order.get i ≠ order.get j := injective.ne hij.ne
    simp only [hij,toPerm,Equiv.ofBijective_apply,true_and,if_true]
    rcases hne.lt_or_gt with h | h <;> simp [h,h.not_gt]
  · simp [hij]

theorem sign_toPerm_eq_isOdd (injective : Function.Injective order.get) :
    Equiv.Perm.sign (toPerm injective) = if isOdd order then -1 else 1 := by
  obtain ⟨cs,hcs⟩ := exists_walks order (List.finRange n) (Vector.replicate n false)
  have hall : ((List.finRange n).foldl (countCycle order) (false,Vector.replicate n false)).2 =
      mark cs.flatten (Vector.replicate n false) := by rw [foldl_countCycle hcs]
  obtain ⟨σ,hσ,hsign⟩ := counted_search injective
  rw [isOdd_eq,← hsign]
  congr 1
  ext i
  have hi : i ∈ cs.flatten := hcs.flatten_perm.mem_iff.mpr (List.mem_finRange i)
  rw [hσ,hall,if_pos ((get_mark _ _ _).mpr (.inl hi))]
  rfl

end Linear
end NumericWorkbench
