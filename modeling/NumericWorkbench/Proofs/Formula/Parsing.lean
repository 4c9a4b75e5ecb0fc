import NumericWorkbench.Proofs.Except
import NumericWorkbench.Proofs.Formula.Grammar
/-! The parser accepts the grammar: what it reads has a derivation, and a derivation that is not
nested too deep is read to its end. -/
namespace NumericWorkbench
namespace Formula

/-- What a reader takes off the front of a list has a derivation with at most `n` nested unaries. -/
def Sound (s : Symbol) (n : Nat) (read : Reader) : Prop :=
  ∀ ts e rest, read ts = .ok (e,rest) →
    ∃ used d, ts = used ++ rest ∧ d ≤ n ∧ Derives s (used.map Lexeme.token) e d

section Soundness
variable {op : Token → Option Operation} {operand u : Reader} {s s' : Symbol} {n : Nat}

theorem chainRest_sound (join : Joins op s s') (h : Sound s' n operand) (fuel : Nat) (left : Expr)
    (ts : List Lexeme) (e : Expr) (rest : List Lexeme)
    (hr : chainRest op operand fuel left ts = .ok (e,rest)) (used : List Lexeme) (d : Nat)
    (hd : d ≤ n) (hl : Derives s (used.map Lexeme.token) left d) :
    ∃ more d', ts = more ++ rest ∧ d' ≤ n ∧ Derives s ((used ++ more).map Lexeme.token) e d' := by
  fun_induction chainRest op operand fuel left ts generalizing used d with
  | case1 left ts | case2 fuel left | case3 fuel left t ts ho =>
    cases hr
    exact ⟨[],d,rfl,hd,by simpa using hl⟩
  | case4 fuel left t ts o ho ih =>
    obtain ⟨⟨right,rest'⟩,hop,hrest⟩ := bind_eq_ok.mp hr
    obtain ⟨inner,d',rfl,hd',hi⟩ := h ts right rest' hop
    have hj := join _ _ _ _ _ _ _ _ ho hl hi
    obtain ⟨more,d'',rfl,hd'',hm⟩ := ih right rest' hrest (used ++ t::inner) (max d d') (by omega)
      (by simpa using hj)
    exact ⟨t::inner ++ more,d'',by simp,hd'',by simpa using hm⟩

theorem chain_sound (join : Joins op s s') (first : ∀ {ts e d}, Derives s' ts e d → Derives s ts e d)
    (h : Sound s' n operand) : Sound s n (chain op operand) := by
  intro ts e rest hr
  obtain ⟨⟨left,rest'⟩,hop,hrest⟩ := bind_eq_ok.mp hr
  obtain ⟨used,d,rfl,hd,hu⟩ := h ts left rest' hop
  obtain ⟨more,d',rfl,hd',hm⟩ := chainRest_sound join h _ left rest' e rest hrest used d hd (first hu)
  exact ⟨used ++ more,d',by simp,hd',hm⟩

theorem expression_sound (h : Sound .unary n u) : Sound .expression n (expression u) :=
  chain_sound joins_additive Derives.term (chain_sound joins_multiplicative Derives.unary h)

theorem bracketed_sound (h : Sound .unary n u) (start : Nat) (ts : List Lexeme) (e : Expr)
    (rest : List Lexeme) (hr : bracketed u start ts = .ok (e,rest)) :
    ∃ inner pos d, ts = inner ++ ⟨.rightParen,pos⟩::rest ∧ d ≤ n ∧
      Derives .expression (inner.map Lexeme.token) e d := by
  unfold bracketed at hr
  split at hr
  · cases hr
  · obtain ⟨⟨inner,rest'⟩,he,hclose⟩ := bind_eq_ok.mp hr
    obtain ⟨used,d,rfl,hd,hu⟩ := expression_sound h _ _ _ he
    split at hclose
    · rename_i hc
      cases hclose
      cases hc
      exact ⟨used,_,d,rfl,hd,hu⟩
    · cases hclose

theorem primary_sound (h : Sound .unary n u) : Sound .primary n (primary u) := by
  intro ts e rest hr
  rcases ts with _ | ⟨⟨token,start⟩,ts⟩
  · cases hr
  cases token with
  | number v => cases hr; exact ⟨[_],0,rfl,by omega,.number v⟩
  | var => cases hr; exact ⟨[_],0,rfl,by omega,.var⟩
  | constant c => cases hr; exact ⟨[_],0,rfl,by omega,.constant c⟩
  | function f =>
    simp only [primary] at hr
    split at hr
    · rename_i pos ts
      obtain ⟨⟨argument,rest'⟩,hb,hret⟩ := bind_eq_ok.mp hr
      cases hret
      obtain ⟨inner,close,d,rfl,hd,hi⟩ := bracketed_sound h _ _ _ _ hb
      exact ⟨⟨.function f,start⟩::⟨.leftParen,pos⟩::(inner ++ [⟨.rightParen,close⟩]),d,by simp,hd,
        by simpa using Derives.function f hi⟩
    · cases hr
  | leftParen =>
    obtain ⟨inner,close,d,rfl,hd,hi⟩ := bracketed_sound h _ _ _ _ hr
    exact ⟨⟨.leftParen,start⟩::(inner ++ [⟨.rightParen,close⟩]),d,by simp,hd,
      by simpa using Derives.bracket hi⟩
  | plus | minus | star | slash | caret | rightParen => cases hr

theorem power_sound (h : Sound .unary n u) : Sound .power n (power u) := by
  intro ts e rest hr
  obtain ⟨⟨base,rest'⟩,hp,hpow⟩ := bind_eq_ok.mp hr
  obtain ⟨used,d,rfl,hd,hu⟩ := primary_sound h _ _ _ hp
  split at hpow
  · rename_i base pos rest' hc
    cases hc
    obtain ⟨⟨exponent,rest''⟩,he,hret⟩ := bind_eq_ok.mp hpow
    cases hret
    obtain ⟨inner,d',rfl,hd',hi⟩ := h _ _ _ he
    exact ⟨used ++ ⟨.caret,pos⟩::inner,max d d',by simp,by omega,by simpa using Derives.pow hu hi⟩
  · rename_i hc
    cases hpow
    cases hc
    exact ⟨used,d,rfl,hd,.primary hu⟩

theorem signedPower_sound (h : Sound .unary n u) : Sound .unary (n+1) (signedPower u) := by
  intro ts e rest hr
  unfold signedPower at hr
  split at hr
  · rename_i pos ts
    obtain ⟨used,d,rfl,hd,hu⟩ := h _ _ _ hr
    exact ⟨⟨.plus,pos⟩::used,d+1,rfl,by omega,.plus hu⟩
  · rename_i pos ts
    obtain ⟨⟨inner,rest'⟩,hi,hret⟩ := bind_eq_ok.mp hr
    cases hret
    obtain ⟨used,d,rfl,hd,hu⟩ := h _ _ _ hi
    exact ⟨⟨.minus,pos⟩::used,d+1,rfl,by omega,hu.signed⟩
  · obtain ⟨used,d,rfl,hd,hu⟩ := power_sound h _ _ _ hr
    exact ⟨used,d+1,rfl,by omega,.power hu⟩

theorem unary_sound (n : Nat) : Sound .unary n (unary n) := by
  induction n with
  | zero => intro ts e rest hr; cases hr
  | succ n ih => exact signedPower_sound ih

end Soundness

/-- A result that needs `d` nested unaries comes out if `n` of them are allowed, and the nesting
is refused otherwise. -/
def Within {β : Type} (d n : Nat) (r r' : Except Error β) : Prop :=
  (d ≤ n → r = r') ∧ (n < d → ∃ pos, r = .error (.tooDeep pos maxNesting))

namespace Within
variable {β γ : Type} {d d' n : Nat} {r r' r'' : Except Error β}

theorem refl (r : Except Error β) : Within 0 n r r := ⟨fun _ => rfl,fun h => by omega⟩

theorem trans (h : Within d n r r') (h' : Within d' n r' r'') : Within (max d d') n r r'' := by
  constructor
  · intro hn
    rw [h.1 (by omega),h'.1 (by omega)]
  · intro hn
    by_cases hd : d ≤ n
    · rw [h.1 hd]
      exact h'.2 (by omega)
    · exact h.2 (by omega)

theorem bind (h : Within d n r r') (f : β → Except Error γ) : Within d n (r >>= f) (r' >>= f) := by
  constructor
  · intro hn
    rw [h.1 hn]
  · intro hn
    obtain ⟨pos,hr⟩ := h.2 hn
    exact ⟨pos,by rw [hr]; rfl⟩

end Within

section Chains
variable {op : Token → Option Operation} {operand : Reader} {s : Symbol} {n : Nat}

theorem chainRest_fuel (h : Sound s n operand) (fuel fuel' : Nat) (left : Expr) (ts : List Lexeme)
    (hf : ts.length ≤ fuel) (hf' : ts.length ≤ fuel') :
    chainRest op operand fuel left ts = chainRest op operand fuel' left ts := by
  induction fuel generalizing fuel' left ts with
  | zero =>
    obtain rfl := List.length_eq_zero_iff.mp (Nat.le_zero.mp hf)
    cases fuel' <;> rfl
  | succ fuel ih =>
    rcases ts with _ | ⟨t,ts⟩
    · cases fuel' <;> rfl
    obtain _ | fuel' := fuel'
    · simp at hf'
    cases ho : op t.token with
    | none => simp [chainRest,ho]
    | some o =>
      cases hop : operand ts with
      | error x => simp [chainRest,ho,hop]
      | ok p =>
        obtain ⟨right,rest⟩ := p
        obtain ⟨used,_,rfl,_,_⟩ := h _ _ _ hop
        simp only [List.length_cons,List.length_append] at hf hf'
        simpa [chainRest,ho,hop] using ih fuel' _ rest (by omega) (by omega)

theorem chainRest_stop (left : Expr) (rest : List Lexeme)
    (h : ∀ t ∈ rest.head?, op t.token = none) :
    chainRest op operand rest.length left rest = .ok (left,rest) := by
  cases rest with
  | nil => rfl
  | cons t ts => simp [chainRest,h t rfl]

theorem chainRest_within (h : Sound s n operand) {t : Lexeme} {o : Operation}
    (ho : op t.token = some o) (left : Expr) {ts rest : List Lexeme} {right : Expr} {d : Nat}
    (hop : Within d n (operand ts) (.ok (right,rest))) (hl : rest.length ≤ ts.length) :
    Within d n (chainRest op operand (t::ts).length left (t::ts))
      (chainRest op operand rest.length (.binary o left right) rest) := by
  have hb := hop.bind fun p => chainRest op operand ts.length (.binary o left p.1) p.2
  rw [ok_bind,chainRest_fuel h ts.length rest.length _ rest hl (Nat.le_refl _)] at hb
  simpa [chainRest,ho] using hb

theorem chain_within {ts rest : List Lexeme} {left : Expr} {d : Nat}
    (hop : Within d n (operand ts) (.ok (left,rest))) :
    Within d n (chain op operand ts) (chainRest op operand rest.length left rest) :=
  hop.bind fun p => chainRest op operand p.2.length p.1 p.2

end Chains

/-- The reader of a symbol, where at most `n` unaries may be nested. -/
def Symbol.read (n : Nat) : Symbol → Reader
  | .expression => Formula.expression (Formula.unary n)
  | .term => chain multiplicative (Formula.unary n)
  | .unary => Formula.unary n
  | .power => Formula.power (Formula.unary n)
  | .primary => Formula.primary (Formula.unary n)

/-- What is left to do for the reader of a symbol that has read `e`. Only a chain goes on. -/
def Symbol.resume (n : Nat) : Symbol → Expr → Reader
  | .expression,e,rest =>
    chainRest additive (chain multiplicative (Formula.unary n)) rest.length e rest
  | .term,e,rest => chainRest multiplicative (Formula.unary n) rest.length e rest
  | _,e,rest => .ok (e,rest)

/-- What follows does not belong to the last operand. -/
def Symbol.Stops : Symbol → List Lexeme → Prop
  | .expression,rest => ∀ t ∈ rest.head?, t.token ≠ .caret ∧ multiplicative t.token = none
  | .primary,_ => True
  | _,rest => ∀ t ∈ rest.head?, t.token ≠ .caret

section Completeness
variable {n d d' : Nat} {e l r : Expr}

/-- The tokens `ts` are read as `e`, whatever follows that does not belong to their end. -/
def Complete (s : Symbol) (ts : List Token) (e : Expr) (d : Nat) : Prop :=
  ∀ ls n rest, ls.map Lexeme.token = ts → s.Stops rest →
    Within d n (s.read n (ls ++ rest)) (s.resume n e rest)

theorem map_token_eq_operator {ls : List Lexeme} {ts us : List Token} {t : Token}
    (h : ls.map Lexeme.token = ts ++ t::us) :
    ∃ as pos bs, ls = as ++ ⟨t,pos⟩::bs ∧ as.map Lexeme.token = ts ∧ bs.map Lexeme.token = us := by
  obtain ⟨as,ls',rfl,has,hls⟩ := List.map_eq_append_iff.mp h
  obtain ⟨⟨t,pos⟩,bs,rfl,rfl,hbs⟩ := List.map_eq_cons_iff.mp hls
  exact ⟨as,pos,bs,rfl,has,hbs⟩

theorem term_complete {ts : List Token} (h : Complete .term ts e d) {ls : List Lexeme}
    (hls : ls.map Lexeme.token = ts) {rest : List Lexeme} (hs : Symbol.expression.Stops rest) :
    Within d n (chain multiplicative (unary n) (ls ++ rest)) (.ok (e,rest)) := by
  have hr := h ls n rest hls fun t ht => (hs t ht).1
  have hc : chainRest multiplicative (unary n) rest.length e rest = .ok (e,rest) :=
    chainRest_stop e rest fun t ht => (hs t ht).2
  simpa only [Symbol.read,Symbol.resume,hc] using hr

theorem additive_complete {t : Token} {o : Operation} (ho : additive t = some o)
    (hc : t ≠ .caret ∧ multiplicative t = none) {ts us : List Token}
    (hl : Complete .expression ts l d) (hr : Complete .term us r d') :
    Complete .expression (ts ++ t::us) (.binary o l r) (max d d') := by
  intro ls n rest hls hs
  obtain ⟨as,pos,bs,rfl,has,hbs⟩ := map_token_eq_operator hls
  have h₁ := hl as n (⟨t,pos⟩::(bs ++ rest)) has (by simpa [Symbol.Stops] using hc)
  have hsound := chain_sound joins_multiplicative Derives.unary (unary_sound n)
  have h₂ := chainRest_within hsound (t := ⟨t,pos⟩) ho l (term_complete hr hbs hs) (by simp)
  simpa [Symbol.read,Symbol.resume] using h₁.trans h₂

theorem multiplicative_complete {t : Token} {o : Operation} (ho : multiplicative t = some o)
    (hc : t ≠ .caret) {ts us : List Token} (hl : Complete .term ts l d)
    (hr : Complete .unary us r d') :
    Complete .term (ts ++ t::us) (.binary o l r) (max d d') := by
  intro ls n rest hls hs
  obtain ⟨as,pos,bs,rfl,has,hbs⟩ := map_token_eq_operator hls
  have h₁ := hl as n (⟨t,pos⟩::(bs ++ rest)) has (by simpa [Symbol.Stops] using hc)
  have h₂ := chainRest_within (unary_sound n) (t := ⟨t,pos⟩) ho l (hr bs n rest hbs hs) (by simp)
  simpa [Symbol.read,Symbol.resume] using h₁.trans h₂

theorem expression_complete {ts : List Token} (h : Complete .expression ts e d) {ls : List Lexeme}
    (hls : ls.map Lexeme.token = ts) {rest : List Lexeme} (hs : Symbol.expression.Stops rest)
    (hop : ∀ t ∈ rest.head?, additive t.token = none) :
    Within d n (expression (unary n) (ls ++ rest)) (.ok (e,rest)) := by
  have hr := h ls n rest hls hs
  have hc : chainRest additive (chain multiplicative (unary n)) rest.length e rest = .ok (e,rest) :=
    chainRest_stop e rest hop
  simpa only [Symbol.read,Symbol.resume,hc] using hr

def bracketRest (start : Nat) : Expr × List Lexeme → Except Error (Expr × List Lexeme)
  | (inner,⟨.rightParen,_⟩::rest) => return (inner,rest)
  | _ => throw (.missingParen start)

theorem bracketed_eq (u : Reader) (start : Nat) {t : Lexeme} (ts : List Lexeme)
    (ht : t.token ≠ .rightParen) :
    bracketed u start (t::ts) = expression u (t::ts) >>= bracketRest start := by
  obtain ⟨t,pos⟩ := t
  cases t <;> first | rfl | exact absurd rfl ht

theorem bracketed_complete {ts : List Token} (hd : Derives .expression ts e d)
    (h : Complete .expression ts e d) {ls : List Lexeme} (hls : ls.map Lexeme.token = ts)
    (start pos : Nat) (rest : List Lexeme) :
    Within d n (bracketed (unary n) start (ls ++ ⟨.rightParen,pos⟩::rest)) (.ok (e,rest)) := by
  have he : Within d n (expression (unary n) (ls ++ ⟨.rightParen,pos⟩::rest))
      (.ok (e,⟨.rightParen,pos⟩::rest)) :=
    expression_complete h hls (by simp [Symbol.Stops,multiplicative]) (by simp [additive])
  obtain ⟨t,us,rfl,ht⟩ := hd.exists_begin
  obtain ⟨t,bs,rfl,rfl,hbs⟩ := List.map_eq_cons_iff.mp hls
  have hopen : t.token ≠ .rightParen := by
    intro hparen
    simp [hparen,Symbol.begins,Token.startsOperand] at ht
  rw [List.cons_append,bracketed_eq _ _ _ hopen]
  exact he.bind (bracketRest start)

theorem function_complete (f : Elementary) {ts : List Token} (hd : Derives .expression ts e d)
    (h : Complete .expression ts e d) :
    Complete .primary (.function f::.leftParen::(ts ++ [.rightParen])) (.apply f e) d := by
  intro ls n rest hls _
  obtain ⟨⟨_,start⟩,ls',rfl,rfl,hls'⟩ := List.map_eq_cons_iff.mp hls
  obtain ⟨⟨_,pos⟩,ls'',rfl,rfl,hls''⟩ := List.map_eq_cons_iff.mp hls'
  obtain ⟨as,close,bs,rfl,has,hbs⟩ := map_token_eq_operator hls''
  obtain rfl := List.map_eq_nil_iff.mp hbs
  have hb := (bracketed_complete (n := n) hd h has start close rest).bind fun p =>
    Except.ok (Expr.apply f p.1,p.2)
  simp only [List.cons_append,List.append_assoc,List.nil_append]
  exact hb

theorem bracket_complete {ts : List Token} (hd : Derives .expression ts e d)
    (h : Complete .expression ts e d) :
    Complete .primary (.leftParen::(ts ++ [.rightParen])) e d := by
  intro ls n rest hls _
  obtain ⟨⟨_,start⟩,ls',rfl,rfl,hls'⟩ := List.map_eq_cons_iff.mp hls
  obtain ⟨as,close,bs,rfl,has,hbs⟩ := map_token_eq_operator hls'
  obtain rfl := List.map_eq_nil_iff.mp hbs
  simpa [Symbol.read,Symbol.resume,primary] using
    bracketed_complete (n := n) hd h has start close rest

def powerRest (u : Reader) : Expr × List Lexeme → Except Error (Expr × List Lexeme)
  | (base,⟨.caret,_⟩::rest) => do
    let (exponent,rest) ← u rest
    return (.binary .pow base exponent,rest)
  | (base,rest) => return (base,rest)

theorem power_eq (u : Reader) (ts : List Lexeme) : power u ts = primary u ts >>= powerRest u := rfl

theorem powerRest_stop {u : Reader} {rest : List Lexeme} (h : Symbol.power.Stops rest) :
    powerRest u (e,rest) = .ok (e,rest) := by
  rcases rest with _ | ⟨⟨t,pos⟩,rest⟩
  · rfl
  · have ht : t ≠ .caret := h _ rfl
    cases t <;> first | rfl | exact absurd rfl ht

theorem power_complete {ts : List Token} (h : Complete .primary ts e d) :
    Complete .power ts e d := by
  intro ls n rest hls hs
  have hb : Within d n (primary (unary n) (ls ++ rest) >>= powerRest (unary n))
      (powerRest (unary n) (e,rest)) := (h ls n rest hls trivial).bind _
  rwa [← power_eq,powerRest_stop hs] at hb

theorem pow_complete {ts us : List Token} (hl : Complete .primary ts l d)
    (hr : Complete .unary us r d') :
    Complete .power (ts ++ .caret::us) (.binary .pow l r) (max d d') := by
  intro ls n rest hls hs
  obtain ⟨as,pos,bs,rfl,has,hbs⟩ := map_token_eq_operator hls
  have h₁ := (hl as n (⟨.caret,pos⟩::(bs ++ rest)) has trivial).bind (powerRest (unary n))
  have h₂ := (hr bs n rest hbs hs).bind fun p => Except.ok (Expr.binary .pow l p.1,p.2)
  rw [List.append_assoc]
  exact h₁.trans h₂

theorem unary_complete {ts : List Token} (h : ∀ ls n rest, ls.map Lexeme.token = ts →
      Symbol.unary.Stops rest → Within d n (signedPower (unary n) (ls ++ rest)) (.ok (e,rest))) :
    Complete .unary ts e (d+1) := by
  intro ls n rest hls hs
  cases n with
  | zero => exact ⟨fun hn => by omega,fun _ => ⟨_,rfl⟩⟩
  | succ n =>
    have hr := h ls n rest hls hs
    exact ⟨fun hn => hr.1 (by omega),fun hn => hr.2 (by omega)⟩

theorem plus_complete {ts : List Token} (h : Complete .unary ts e d) :
    Complete .unary (.plus::ts) e (d+1) := by
  refine unary_complete fun ls n rest hls hs => ?_
  obtain ⟨⟨_,pos⟩,ls',rfl,rfl,hls'⟩ := List.map_eq_cons_iff.mp hls
  exact h ls' n rest hls' hs

theorem minus_complete {ts : List Token} (h : Complete .unary ts e d) :
    Complete .unary (.minus::ts) e.signed (d+1) := by
  refine unary_complete fun ls n rest hls hs => ?_
  obtain ⟨⟨_,pos⟩,ls',rfl,rfl,hls'⟩ := List.map_eq_cons_iff.mp hls
  exact (h ls' n rest hls' hs).bind fun p => Except.ok (p.1.signed,p.2)

theorem unsigned_complete {ts : List Token} (hd : Derives .power ts e d)
    (h : Complete .power ts e d) : Complete .unary ts e (d+1) := by
  refine unary_complete fun ls n rest hls hs => ?_
  have hp := h ls n rest hls hs
  obtain ⟨t,us,rfl,ht⟩ := hd.exists_begin
  obtain ⟨⟨t,pos⟩,ls',rfl,rfl,hls'⟩ := List.map_eq_cons_iff.mp hls
  cases t <;> first | exact hp | simp [Symbol.begins,Token.startsOperand] at ht

theorem Derives.complete {s : Symbol} {ts : List Token} (h : Derives s ts e d) :
    Complete s ts e d := by
  induction h with
  | term hd ih =>
    intro ls n rest hls hs
    exact chain_within (term_complete ih hls hs)
  | add _ _ ihl ihr => exact additive_complete rfl (by simp [multiplicative]) ihl ihr
  | sub _ _ ihl ihr => exact additive_complete rfl (by simp [multiplicative]) ihl ihr
  | unary hd ih =>
    intro ls n rest hls hs
    exact chain_within (ih ls n rest hls hs)
  | mul _ _ ihl ihr => exact multiplicative_complete rfl (by simp) ihl ihr
  | div _ _ ihl ihr => exact multiplicative_complete rfl (by simp) ihl ihr
  | plus _ ih => exact plus_complete ih
  | minus _ hv ih =>
    have hm := minus_complete ih
    rwa [Expr.signed_of_ne_const hv] at hm
  | minusConst _ ih => exact minus_complete ih
  | power hd ih => exact unsigned_complete hd ih
  | primary _ ih => exact power_complete ih
  | pow _ _ ihl ihr => exact pow_complete ihl ihr
  | number v | var | constant c =>
    intro ls n rest hls _
    obtain ⟨⟨_,pos⟩,ls',rfl,rfl,hls'⟩ := List.map_eq_cons_iff.mp hls
    obtain rfl := List.map_eq_nil_iff.mp hls'
    exact .refl _
  | function f hd ih => exact function_complete f hd ih
  | bracket hd ih => exact bracket_complete hd ih

end Completeness

theorem expression_within {ts : List Lexeme} {e : Expr} {d : Nat}
    (h : Derives .expression (ts.map Lexeme.token) e d) (n : Nat) :
    Within d n (expression (unary n) ts) (.ok (e,[])) := by
  have hstops : Symbol.expression.Stops [] := by simp [Symbol.Stops]
  simpa using expression_complete h.complete rfl hstops (by simp)

theorem Derives.unique {ts : List Lexeme} {e e' : Expr} {d d' : Nat}
    (h : Derives .expression (ts.map Lexeme.token) e d)
    (h' : Derives .expression (ts.map Lexeme.token) e' d') : e = e' ∧ d = d' := by
  have eq_of_le {e e' : Expr} {d d' : Nat} (h : Derives .expression (ts.map Lexeme.token) e d)
      (h' : Derives .expression (ts.map Lexeme.token) e' d') (hd : d ≤ d') : e = e' ∧ d = d' := by
    have hok := (expression_within h d).1 (Nat.le_refl d)
    obtain hd | rfl := Nat.lt_or_eq_of_le hd
    · -- the shallower nesting is accepted for one tree and refused for the other
      obtain ⟨pos,herr⟩ := (expression_within h' d).2 hd
      simp [hok] at herr
    · have hok' := (expression_within h' d).1 (Nat.le_refl d)
      simpa [hok] using hok'
  obtain hd | hd := Nat.le_total d d'
  · exact eq_of_le h h' hd
  · obtain ⟨he,hd⟩ := eq_of_le h' h hd
    exact ⟨he.symm,hd.symm⟩

def wholeOnly : Expr × List Lexeme → Except Error Expr
  | (e,[]) => return e
  | (_,⟨.rightParen,pos⟩::_) => throw (.unexpectedToken .rightParen pos)
  | (_,t::_) => throw (.trailingInput t.pos)

theorem parseTokens_eq {ts : List Lexeme} (nonempty : ts ≠ []) (short : ts.length ≤ maxTokens) :
    parseTokens ts = expression (unary maxNesting) ts >>= wholeOnly := by
  rw [parseTokens,if_neg (by simpa using nonempty),if_neg (Nat.not_lt.mpr short)]
  rfl

theorem parseTokens_sound {ts : List Lexeme} {e : Expr} (nonempty : ts ≠ [])
    (short : ts.length ≤ maxTokens) (h : parseTokens ts = .ok e) :
    ∃ d, d ≤ maxNesting ∧ Derives .expression (ts.map Lexeme.token) e d := by
  rw [parseTokens_eq nonempty short] at h
  obtain ⟨⟨e',rest⟩,he,hend⟩ := bind_eq_ok.mp h
  obtain ⟨used,d,rfl,hd,hu⟩ := expression_sound (unary_sound maxNesting) _ _ _ he
  rcases rest with _ | ⟨⟨t,pos⟩,rest⟩
  · cases hend
    exact ⟨d,hd,by simpa using hu⟩
  · cases t <;> cases hend

theorem Derives.parseTokens_within {ts : List Lexeme} {e : Expr} {d : Nat}
    (h : Derives .expression (ts.map Lexeme.token) e d) (nonempty : ts ≠ [])
    (short : ts.length ≤ maxTokens) : Within d maxNesting (parseTokens ts) (.ok e) := by
  rw [parseTokens_eq nonempty short]
  exact (expression_within h maxNesting).bind wholeOnly

/-- The parser answers with a tree exactly if the tokens are in the grammar with that tree and no
more than 256 unaries lie inside one another. There is at most one such tree, and a deeper
nesting is reported as such. -/
theorem parseTokens_eq_ok_iff_derives (ts : List Lexeme) (nonempty : 1 ≤ ts.length)
    (short : ts.length ≤ 4096) :
    (∀ e, parseTokens ts = .ok e ↔
      ∃ d, d ≤ 256 ∧ Derives .expression (ts.map Lexeme.token) e d) ∧
    (∀ e e' d d', Derives .expression (ts.map Lexeme.token) e d →
      Derives .expression (ts.map Lexeme.token) e' d' → e = e' ∧ d = d') ∧
    ∀ e d, Derives .expression (ts.map Lexeme.token) e d → 256 < d →
      ∃ pos, parseTokens ts = .error (.tooDeep pos 256) := by
  have hne : ts ≠ [] := List.ne_nil_of_length_pos nonempty
  refine ⟨fun e => ⟨parseTokens_sound hne short,?_⟩,fun _ _ _ _ h h' => h.unique h',
    fun _ _ h hd => (h.parseTokens_within hne short).2 hd⟩
  rintro ⟨d,hd,h⟩
  exact (h.parseTokens_within hne short).1 hd

theorem parseTokens_eq_ok_iff_derives_signs :
    let ts : List Lexeme := [⟨.minus,0⟩,⟨.leftParen,1⟩,⟨.number 3,2⟩,⟨.rightParen,3⟩,⟨.plus,4⟩,
      ⟨.number 2,5⟩,⟨.caret,6⟩,⟨.minus,7⟩,⟨.var,8⟩,⟨.caret,9⟩,⟨.number 2,10⟩]
    (1 ≤ ts.length ∧ ts.length ≤ 4096) ∧ ∃ d, d ≤ 256 ∧
      Derives .expression (ts.map Lexeme.token)
        (.binary .add (.const (-3)) (.binary .pow (.const 2)
          (.binary .mul (.const (-1)) (.binary .pow .var (.const 2))))) d := by
  intro ts
  exact ⟨by decide,((parseTokens_eq_ok_iff_derives ts (by decide) (by decide)).1 _).mp rfl⟩

end Formula
end NumericWorkbench
