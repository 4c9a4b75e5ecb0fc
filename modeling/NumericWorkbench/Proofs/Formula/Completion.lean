import NumericWorkbench.Proofs.Formula.Products
/-! Where the signs of implied products go: every token keeps its place in the order, exactly one sign
stands between two neighbours that mean a product, and nothing else is added. -/
namespace NumericWorkbench
namespace Formula

/-- Two neighbours that mean a product, which is not written. -/
@[mk_iff] structure Implied (a b : Lexeme) : Prop where
  ends : a.token.endsOperand = true
  starts : b.token.startsOperand = true
  numbers : ¬(a.token.isNumber = true ∧ b.token.isNumber = true)

/-- What becomes of a list when the signs of its implied products are written. The lexeme with the
index `i` goes to `place i`, and `place` of the length is the end. -/
structure Completes (ls out : List Lexeme) (place : ℕ → ℕ) : Prop where
  first : place 0 = 0
  last : place ls.length = out.length
  kept : ∀ i < ls.length, out[place i]? = ls[i]?
  implied : ∀ i a b, ls[i]? = some a → ls[i+1]? = some b → Implied a b →
    place (i+1) = place i+2 ∧ out[place i+1]? = some ⟨.star,b.pos⟩
  direct : ∀ i a, ls[i]? = some a → (∀ b, ls[i+1]? = some b → ¬Implied a b) →
    place (i+1) = place i+1

theorem juxtaposed_iff {a b : Lexeme} : a.token.juxtaposed b.token = true ↔ Implied a b := by
  simp [Token.juxtaposed,implied_iff,and_assoc,imp_iff_not_or]

def IsGap (a b : Lexeme) (gap : List Lexeme) : Prop :=
  (Implied a b ∧ gap = [⟨.star,b.pos⟩]) ∨ (¬Implied a b ∧ gap = [])

def placesAfter (n : ℕ) (place : ℕ → ℕ) : ℕ → ℕ
  | 0 => 0
  | i+1 => place i+n

section Completes
variable {a b : Lexeme} {ls out : List Lexeme} {place : ℕ → ℕ}

theorem completes_nil : Completes [] [] id := ⟨rfl,rfl,by simp,by simp,by simp⟩

theorem completes_single (a : Lexeme) : Completes [a] [a] id := by
  refine ⟨rfl,rfl,fun i _ => rfl,?_,fun i a _ _ => rfl⟩
  intro i a b ha hb
  simp at hb

theorem Completes.cons {gap : List Lexeme} (hgap : IsGap a b gap)
    (h : Completes (b::ls) out place) :
    Completes (a::b::ls) (a::(gap ++ out)) (placesAfter (gap.length+1) place) := by
  refine ⟨rfl,?_,?_,?_,?_⟩
  · have hlast := h.last
    simp only [List.length_cons,List.length_append,placesAfter] at hlast ⊢
    omega
  · rintro (_ | i) hi
    · rfl
    · have hkept := h.kept i (Nat.lt_of_succ_lt_succ hi)
      simpa [placesAfter,← Nat.add_assoc,List.getElem?_append_right] using hkept
  · rintro (_ | i) c d hc hd hcd
    · cases hc
      cases hd
      obtain ⟨-,rfl⟩ := hgap.resolve_right fun hnone => hnone.1 hcd
      simp [placesAfter,h.first]
    · obtain ⟨hplace,hstar⟩ := h.implied i c d hc hd hcd
      refine ⟨by simp only [placesAfter,hplace]; omega,?_⟩
      have hindex : place i+(gap.length+1)+1 = (place i+1+gap.length)+1 := by omega
      rw [placesAfter,hindex,List.getElem?_cons_succ,List.getElem?_append_right (by omega)]
      simpa using hstar
  · rintro (_ | i) c hc hnone
    · cases hc
      obtain ⟨-,rfl⟩ := hgap.resolve_left fun himplied => hnone b rfl himplied.1
      simp [placesAfter,h.first]
    · have hdirect := h.direct i c hc hnone
      simp only [placesAfter]
      omega

end Completes

theorem exists_completes (ls : List Lexeme) : ∃ place, Completes ls (insertProducts ls) place := by
  fun_induction insertProducts ls with
  | case1 a b rest hab ih =>
    obtain ⟨place,h⟩ := ih
    exact ⟨_,h.cons (.inl ⟨juxtaposed_iff.mp hab,rfl⟩)⟩
  | case2 a b rest hab ih =>
    obtain ⟨place,h⟩ := ih
    exact ⟨_,h.cons (.inr ⟨mt juxtaposed_iff.mpr hab,rfl⟩)⟩
  | case3 ls hshort =>
    rcases ls with _ | ⟨a,_ | ⟨b,rest⟩⟩
    · exact ⟨id,completes_nil⟩
    · exact ⟨id,completes_single a⟩
    · exact absurd rfl (hshort a b rest)

theorem explicit_insertProducts (ls : List Lexeme) :
    Explicit ((insertProducts ls).map Lexeme.token) := by
  rw [map_token_insertProducts]
  exact explicit_withProducts _

theorem length_insertProducts_lt {ls : List Lexeme} (h : ls ≠ []) :
    (insertProducts ls).length < 2*ls.length := by
  fun_induction insertProducts ls with
  | case1 a b rest _ ih | case2 a b rest _ ih =>
    have hrest := ih (by simp)
    simp only [List.length_cons] at hrest ⊢
    omega
  | case3 ls =>
    have hpos := List.length_pos_iff.mpr h
    omega

/-- The signs of implied products are all that is added to a list, and each of them stands between
the two neighbours that imply it, at the position of the second. After that no product is implied any
more, and no sign is added twice. -/
theorem insertProducts_completes (ls : List Lexeme) :
    (∃ place, Completes ls (insertProducts ls) place) ∧
    (insertProducts ls).IsChain (fun a b => ¬Implied a b) ∧
    (ls ≠ [] → (insertProducts ls).length < 2*ls.length) ∧
    insertProducts (insertProducts ls) = insertProducts ls := by
  have hexplicit := explicit_insertProducts ls
  refine ⟨exists_completes ls,?_,length_insertProducts_lt,insertProducts_explicit hexplicit⟩
  rw [Explicit,List.isChain_map] at hexplicit
  exact hexplicit.imp fun a b hab h => by simp [juxtaposed_iff.mpr h] at hab

/-- A list that no formula gives: a sign of a product is already there, the positions do not ascend, and
two numbers stand side by side. -/
theorem insertProducts_completes_mixed :
    insertProducts [⟨.var,7⟩,⟨.star,2⟩,⟨.number 2.0,5⟩,⟨.number 3.0,5⟩,⟨.var,1⟩] =
      [⟨.var,7⟩,⟨.star,2⟩,⟨.number 2.0,5⟩,⟨.number 3.0,5⟩,⟨.star,1⟩,⟨.var,1⟩] ∧
    (insertProducts [⟨.var,7⟩,⟨.star,2⟩,⟨.number 2.0,5⟩,⟨.number 3.0,5⟩,⟨.var,1⟩]).length < 2*5 ∧
    insertProducts [⟨.var,7⟩,⟨.star,2⟩,⟨.number 2.0,5⟩,⟨.number 3.0,5⟩,⟨.star,1⟩,⟨.var,1⟩] =
      [⟨.var,7⟩,⟨.star,2⟩,⟨.number 2.0,5⟩,⟨.number 3.0,5⟩,⟨.star,1⟩,⟨.var,1⟩] := by
  obtain ⟨-,-,hlength,hagain⟩ := insertProducts_completes
    [⟨.var,7⟩,⟨.star,2⟩,⟨.number 2.0,5⟩,⟨.number 3.0,5⟩,⟨.var,1⟩]
  exact ⟨rfl,hlength (by simp),hagain⟩

end Formula
end NumericWorkbench
