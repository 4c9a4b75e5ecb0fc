import NumericWorkbench.Proofs.Formula.Answers
/-! Numbers side by side. No product is implied between them, so that no formula with two of them is
accepted, and they are all that can stand behind an expression without an operator. -/
namespace NumericWorkbench
namespace Formula

/-- A number stands directly in front of `rest`, which begins with a number. -/
def NumbersMeet (ts rest : List Lexeme) : Prop :=
  ∃ front a p b q back, ts = front ++ ⟨.number a,p⟩::rest ∧ rest = ⟨.number b,q⟩::back

variable {formula : String} {ls ts rest rest' front front' back back' : List Lexeme}
  {l l' : Lexeme} {e : Expr} {d start : Nat}

section Numbers

theorem not_apart_withProducts (ts us : List Token) (a b : Float) :
    ¬Apart (withProducts (ts ++ .number a::.number b::us)) := by
  intro h
  have hcut : withProducts (ts ++ .number a::.number b::us) =
      withProducts (ts ++ [.number a]) ++ withProducts (.number b::us) := by
    rw [List.append_cons,withProducts_append]
    intro x hx y hy
    obtain rfl : Token.number a = x := by simpa using hx
    cases hy
    simp [Token.juxtaposed,Token.isNumber]
  rw [hcut] at h
  have hmeet := (List.isChain_append.mp h).2.2 (.number a)
    (by rw [getLast?_withProducts]; simp) (.number b) (by rw [head?_withProducts]; rfl)
  simp [Token.endsOperand,Token.startsOperand] at hmeet

theorem Token.exists_number {t : Token} (h : t.isNumber = true) : ∃ v, t = .number v := by
  cases t with
  | number v => exact ⟨v,rfl⟩
  | _ => cases h

theorem numbersMeet_of_startsOperand {content : List Lexeme}
    (h : insertProducts ls = front ++ (content ++ rest))
    (hd : Derives .expression (content.map Lexeme.token) e d)
    (hrest : ∀ t ∈ rest.head?, t.token.startsOperand = true) :
    rest = [] ∨ NumbersMeet (insertProducts ls) rest := by
  rcases rest with _ | ⟨⟨t,q⟩,back⟩
  · exact .inl rfl
  obtain ⟨us,u,htokens,hu⟩ := hd.exists_end
  obtain ⟨inner,last,rfl,-,hlast⟩ := List.map_eq_append_iff.mp htokens
  obtain ⟨⟨u,p⟩,rfl,rfl⟩ := List.map_eq_singleton_iff.mp hlast
  have hsplit : insertProducts ls = (front ++ inner) ++ ⟨u,p⟩::⟨t,q⟩::back := by simpa using h
  have hexplicit := explicit_withProducts (ls.map Lexeme.token)
  rw [← map_token_insertProducts,hsplit,List.map_append] at hexplicit
  have hpair := (List.isChain_cons_cons.mp (List.isChain_append.mp hexplicit).2.1).1
  have ht : t.startsOperand = true := hrest _ rfl
  have hnumbers : u.isNumber = true ∧ t.isNumber = true := by
    simpa [Token.juxtaposed,hu,ht] using hpair
  obtain ⟨a,rfl⟩ := Token.exists_number hnumbers.1
  obtain ⟨b,rfl⟩ := Token.exists_number hnumbers.2
  exact .inr ⟨_,a,p,b,q,back,hsplit,rfl⟩

theorem expression_stops {n : Nat} {content : List Lexeme}
    (hread : expression (unary n) content = .ok (e,rest))
    (hparen : ∀ t ∈ rest.head?, t.token ≠ .rightParen)
    (h : insertProducts ls = front ++ content) :
    ∃ used d, content = used ++ rest ∧ Derives .expression (used.map Lexeme.token) e d ∧
      (rest = [] ∨ NumbersMeet (insertProducts ls) rest) := by
  have hleaves := expression_leaves n _ _ _ hread
  obtain ⟨used,d,rfl,-,hd⟩ := expression_sound (unary_sound n) _ _ _ hread
  exact ⟨used,d,rfl,hd,numbersMeet_of_startsOperand h hd fun t ht =>
    startsOperand_of_leaves (hparen t ht) (hleaves t ht)⟩

theorem NumbersMeet.scanned (h : NumbersMeet (insertProducts ls) rest) :
    ∃ rest', NumbersMeet ls rest' ∧ insertProducts rest' = rest := by
  obtain ⟨front,a,p,b,q,back,hsplit,rfl⟩ := h
  obtain ⟨front',back',hls,hback⟩ := exists_of_insertProducts (by simp) hsplit
  obtain ⟨back'',rfl,hrest⟩ := insertProducts_eq_cons_cons (by simp) hback
  exact ⟨_,⟨front',a,p,b,q,back'',hls,rfl⟩,hrest⟩

end Numbers

section Places

/-- The tokens of a text have different positions. Those of the implied products have them, too, but
for these the place of a token is determined by its position. -/
theorem insertProducts_split_unique (hls : (ls.map Lexeme.pos).Pairwise (· < ·))
    (hl : l.token ≠ .star) (hl' : l'.token ≠ .star) (hpos : l.pos = l'.pos)
    (h : insertProducts ls = front ++ l::back) (h' : insertProducts ls = front' ++ l'::back') :
    l::back = l'::back' := by
  obtain ⟨before,after,rfl,hback⟩ := exists_of_insertProducts hl h
  obtain ⟨before',after',hls',hback'⟩ := exists_of_insertProducts hl' h'
  simp only [List.map_append,List.map_cons,List.pairwise_append,List.pairwise_cons,
    List.mem_map,List.mem_cons] at hls
  have hbefore : l' ∉ before := fun hmem => by
    have hlt := hls.2.2 _ ⟨l',hmem,rfl⟩ l.pos (.inl rfl)
    omega
  have hafter : l' ∉ after := fun hmem => by
    have hlt := hls.2.1.1 _ ⟨l',hmem,rfl⟩
    omega
  obtain ⟨-,rfl,rfl⟩ := (List.append_cons_inj_of_notMem hbefore hafter).mp hls'
  exact hback.symm.trans hback'

theorem Opens.exists_first {opening : List Lexeme} (h : Opens start opening) :
    ∃ l tail, opening = l::tail ∧ l.token ≠ .star ∧ l.pos = start := by
  cases h with
  | bracket => exact ⟨_,_,rfl,by simp,rfl⟩
  | function f pos => exact ⟨_,_,rfl,by simp,rfl⟩

theorem Opens.content_unique {opening opening' content content' : List Lexeme}
    (h : Opens start opening) (h' : Opens start opening')
    (heq : opening ++ content = opening' ++ content') : content = content' := by
  cases h <;> cases h' <;> simp_all

theorem Unclosed.unique (hls : (ls.map Lexeme.pos).Pairwise (· < ·))
    (h : Unclosed (insertProducts ls) start rest) (h' : Unclosed (insertProducts ls) start rest') :
    rest = rest' := by
  obtain ⟨⟨front,opening,content,n,e,hsplit,hopen,hread⟩,-⟩ := h
  obtain ⟨⟨front',opening',content',n',e',hsplit',hopen',hread'⟩,-⟩ := h'
  have hsame : opening ++ content = opening' ++ content' := by
    obtain ⟨l,tail,rfl,hl,hpos⟩ := hopen.exists_first
    obtain ⟨l',tail',rfl,hl',hpos'⟩ := hopen'.exists_first
    exact insertProducts_split_unique hls hl hl' (hpos.trans hpos'.symm) hsplit hsplit'
  obtain rfl := hopen.content_unique hopen' hsame
  exact expression_rest_unique hread hread'

end Places

theorem Unclosed.numbersMeet (h : Unclosed (insertProducts ls) start rest) :
    rest = [] ∨ NumbersMeet (insertProducts ls) rest := by
  obtain ⟨⟨front,opening,content,n,e,hsplit,-,hread⟩,hmissing⟩ := h
  rw [← List.append_assoc] at hsplit
  obtain ⟨used,d,-,-,hstop⟩ := expression_stops hread hmissing hsplit
  exact hstop

/-- A formula with two numbers side by side is refused. If input is left over, it begins with a
number behind a number, and where a closing bracket is missing, the tokens are over or a number
follows a number. -/
theorem parse_numbers (formula : String) :
    (∀ ls rest, scan (normalize formula.toList) = .ok ls → NumbersMeet ls rest →
      ∃ error, parse formula = .error error) ∧
    (∀ pos, parse formula = .error (.trailingInput pos) → ∃ ls t rest,
      scan (normalize formula.toList) = .ok ls ∧ NumbersMeet ls (t::rest) ∧ t.pos = pos) ∧
    ∀ start, parse formula = .error (.missingParen start) → ∃ ts rest,
      tokenize formula = .ok ts ∧ Unclosed ts start rest ∧
      (∀ rest', Unclosed ts start rest' → rest' = rest) ∧ (rest = [] ∨ NumbersMeet ts rest) := by
  refine ⟨?_,?_,?_⟩
  · rintro ls rest hscan ⟨front,a,p,b,q,back,rfl,rfl⟩
    cases hparse : parse formula with
    | error error => exact ⟨error,rfl⟩
    | ok e =>
      obtain ⟨ls',d,hscan',hd⟩ := exists_derivation hparse
      obtain rfl := Except.ok.inj (hscan.symm.trans hscan')
      rw [List.map_append] at hd
      exact absurd hd.apart (not_apart_withProducts _ _ a b)
  · intro pos herror
    obtain ⟨ls,e,t,rest,hscan,hread,hparen⟩ := parse_trailingInput herror
    have hstop : ∀ u ∈ (⟨t,pos⟩::rest : List Lexeme).head?, u.token ≠ .rightParen := by
      rintro u ⟨⟩
      exact hparen
    obtain ⟨used,d,-,-,hends⟩ := expression_stops hread hstop (List.nil_append _).symm
    obtain ⟨rest',hmeet',hrest'⟩ := (hends.resolve_left (by simp)).scanned
    have hhead := head?_insertProducts rest'
    rw [hrest'] at hhead
    obtain ⟨back,rfl⟩ := List.head?_eq_some_iff.mp hhead.symm
    exact ⟨ls,_,back,hscan,hmeet',rfl⟩
  · intro start herror
    obtain ⟨ls,rest,hscan,hunclosed⟩ := parse_missingParen herror
    have hincreasing := (scan_eq_ok_iff.mp hscan).increasing
    exact ⟨_,rest,tokenize_eq_ok.mpr ⟨ls,hscan,rfl⟩,hunclosed,
      fun rest' h => h.unique hincreasing hunclosed,hunclosed.numbersMeet⟩

theorem parse_numbers_points :
    (∃ error, parse "1.2.3" = .error error) ∧
    (parse "1.2.3" = .error (.trailingInput 3) ∧ ∃ ls t rest,
      scan (normalize "1.2.3".toList) = .ok ls ∧ NumbersMeet ls (t::rest) ∧ t.pos = 3) ∧
    parse "2x-sin(1.5.5)" = .error (.missingParen 3) ∧ ∃ ts rest,
      tokenize "2x-sin(1.5.5)" = .ok ts ∧ Unclosed ts 3 rest ∧
      (∀ rest', Unclosed ts 3 rest' → rest' = rest) ∧ (rest = [] ∨ NumbersMeet ts rest) := by
  have hscan : scan (normalize "1.2.3".toList) = .ok [⟨.number 1.2,0⟩,⟨.number 0.3,3⟩] := by
    decide +kernel
  have htrailing : parse "1.2.3" = .error (.trailingInput 3) := by decide +kernel
  have hmissing : parse "2x-sin(1.5.5)" = .error (.missingParen 3) := by decide +kernel
  exact ⟨(parse_numbers "1.2.3").1 _ _ hscan ⟨[],1.2,0,0.3,3,[],rfl,rfl⟩,
    ⟨htrailing,(parse_numbers "1.2.3").2.1 3 htrailing⟩,
    hmissing,(parse_numbers "2x-sin(1.5.5)").2.2 3 hmissing⟩

end Formula
end NumericWorkbench
