import NumericWorkbench.Proofs.Formula.Scanning
/-! The implied products. They depend on the tokens alone and not on their positions, they take
nothing away, and they leave only numbers side by side. -/
namespace NumericWorkbench
namespace Formula

/-- The tokens with the products that are only implied. -/
def withProducts : List Token → List Token
  | [] => []
  | [t] => [t]
  | a::b::ts =>
    if a.juxtaposed b then a::.star::withProducts (b::ts) else a::withProducts (b::ts)

section Tokens
variable {ts us : List Token}

theorem map_token_insertProducts (ls : List Lexeme) :
    (insertProducts ls).map Lexeme.token = withProducts (ls.map Lexeme.token) := by
  fun_induction insertProducts ls with
  | case1 a b rest hab ih | case2 a b rest hab ih => simpa [withProducts,hab] using ih
  | case3 ls hshort =>
    rcases ls with _ | ⟨a,_ | ⟨b,rest⟩⟩
    · rfl
    · rfl
    · exact absurd rfl (hshort a b rest)

theorem head?_withProducts (ts : List Token) : (withProducts ts).head? = ts.head? := by
  rcases ts with _ | ⟨a,_ | ⟨b,ts⟩⟩
  · rfl
  · rfl
  · rw [withProducts]
    split <;> rfl

theorem getLast?_withProducts (ts : List Token) : (withProducts ts).getLast? = ts.getLast? := by
  fun_induction withProducts ts with
  | case1 | case2 => rfl
  | case3 a b ts hab ih | case4 a b ts hab ih =>
    simp only [List.getLast?_cons,ih,Option.getD_some]

theorem withProducts_append (h : ∀ a ∈ ts.getLast?, ∀ b ∈ us.head?, a.juxtaposed b = false) :
    withProducts (ts ++ us) = withProducts ts ++ withProducts us := by
  fun_induction withProducts ts with
  | case1 => rfl
  | case2 a =>
    cases us with
    | nil => rfl
    | cons b us =>
      have hab : a.juxtaposed b = false := h a rfl b rfl
      simp [withProducts,hab]
  | case3 a b ts hab ih | case4 a b ts hab ih =>
    simpa [withProducts,hab] using ih (by simpa using h)

theorem withProducts_cons {t : Token} (ht : t.endsOperand = false) (ts : List Token) :
    withProducts (t::ts) = t::withProducts ts :=
  @withProducts_append [t] ts fun a ha b _ => by
    cases ha
    simp [Token.juxtaposed,ht]

theorem withProducts_before {t : Token} (ht : t.startsOperand = false) (ts us : List Token) :
    withProducts (ts ++ t::us) = withProducts ts ++ withProducts (t::us) :=
  withProducts_append fun a _ b hb => by
    cases hb
    simp [Token.juxtaposed,ht]

theorem explicit_withProducts (ts : List Token) : Explicit (withProducts ts) := by
  fun_induction withProducts ts with
  | case1 => exact List.isChain_nil
  | case2 => exact List.isChain_singleton _
  | case3 a b ts hab ih =>
    refine List.isChain_cons_cons.mpr ⟨?_,Explicit.cons rfl ih⟩
    simp [Token.juxtaposed,Token.startsOperand]
  | case4 a b ts hab ih =>
    refine List.isChain_cons.mpr ⟨fun c hc => ?_,ih⟩
    rw [head?_withProducts] at hc
    obtain rfl : b = c := Option.some.inj hc
    exact Bool.eq_false_of_not_eq_true hab

end Tokens

section Lexemes
variable {ls front back : List Lexeme} {l l' : Lexeme}

theorem head?_insertProducts (ls : List Lexeme) : (insertProducts ls).head? = ls.head? := by
  rcases ls with _ | ⟨a,_ | ⟨b,ls⟩⟩
  · rfl
  · rfl
  · rw [insertProducts]
    split <;> rfl

theorem insertProducts_cons (hl : l.token.endsOperand = false) (ls : List Lexeme) :
    insertProducts (l::ls) = l::insertProducts ls := by
  cases ls with
  | nil => rfl
  | cons b ls => rw [insertProducts,if_neg (by simp [Token.juxtaposed,hl])]

theorem exists_of_insertProducts (hl : l.token ≠ .star)
    (h : insertProducts ls = front ++ l::back) :
    ∃ front' back', ls = front' ++ l::back' ∧ insertProducts (l::back') = l::back := by
  fun_induction insertProducts ls generalizing front with
  | case1 a b rest hab ih =>
    rcases front with _ | ⟨_,_ | ⟨_,front⟩⟩
    · obtain ⟨rfl,rfl⟩ := List.cons.inj h
      exact ⟨[],b::rest,rfl,by rw [insertProducts,if_pos hab]⟩
    · obtain ⟨-,hstar⟩ := List.cons.inj h
      obtain ⟨rfl,-⟩ := List.cons.inj hstar
      exact absurd rfl hl
    · obtain ⟨rfl,hstar⟩ := List.cons.inj h
      obtain ⟨front',back',hsplit,hback⟩ := ih (List.cons.inj hstar).2
      exact ⟨a::front',back',by rw [hsplit]; rfl,hback⟩
  | case2 a b rest hab ih =>
    rcases front with _ | ⟨_,front⟩
    · obtain ⟨rfl,rfl⟩ := List.cons.inj h
      exact ⟨[],b::rest,rfl,by rw [insertProducts,if_neg hab]⟩
    · obtain ⟨rfl,hrest⟩ := List.cons.inj h
      obtain ⟨front',back',hsplit,hback⟩ := ih hrest
      exact ⟨a::front',back',by rw [hsplit]; rfl,hback⟩
  | case3 ls hshort =>
    rcases ls with _ | ⟨a,_ | ⟨b,rest⟩⟩
    · simp at h
    · obtain ⟨rfl,rfl,rfl⟩ : front = [] ∧ a = l ∧ [] = back := by
        rcases front with _ | ⟨_,front⟩ <;> simp_all
      exact ⟨[],[],rfl,rfl⟩
    · exact absurd rfl (hshort a b rest)

theorem insertProducts_eq_cons_cons (hl' : l'.token ≠ .star)
    (h : insertProducts (l::front) = l::l'::back) :
    ∃ back', front = l'::back' ∧ insertProducts (l'::back') = l'::back := by
  rcases front with _ | ⟨b,rest⟩
  · simp [insertProducts] at h
  · rw [insertProducts] at h
    split at h
    · obtain ⟨-,hstar⟩ := List.cons.inj h
      obtain ⟨rfl,-⟩ := List.cons.inj hstar
      exact absurd rfl hl'
    · obtain ⟨-,hrest⟩ := List.cons.inj h
      have hhead := head?_insertProducts (b::rest)
      rw [hrest] at hhead
      obtain rfl : l' = b := Option.some.inj hhead
      exact ⟨rest,rfl,hrest⟩

end Lexemes
end Formula
end NumericWorkbench
