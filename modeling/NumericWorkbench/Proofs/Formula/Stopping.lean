import NumericWorkbench.Proofs.Formula.Parsing
import NumericWorkbench.Proofs.Formula.Products
import NumericWorkbench.Proofs.Formula.Tiling
/-! Where the parser stops. An expression that was read ends an operand, and a token that it leaves
and that is no operator and no closing bracket starts another one. In the tokens of a text that
leaves two numbers side by side. -/
namespace NumericWorkbench
namespace Formula

section Ends
variable {op : Token → Option Operation} {operand u : Reader} {s : Symbol} {n : Nat}
  {p : Token → Prop}

/-- What a reader leaves begins with one of these tokens, if anything is left. -/
def Leaves (p : Token → Prop) (read : Reader) : Prop :=
  ∀ ts e rest, read ts = .ok (e,rest) → ∀ t ∈ rest.head?, p t.token

theorem chainRest_leaves (hs : Sound s n operand) (h : Leaves p operand) (fuel : Nat) (left : Expr)
    (ts : List Lexeme) (e : Expr) (rest : List Lexeme)
    (hr : chainRest op operand fuel left ts = .ok (e,rest)) (hf : ts.length ≤ fuel)
    (hp : ∀ t ∈ ts.head?, p t.token) : ∀ t ∈ rest.head?, op t.token = none ∧ p t.token := by
  fun_induction chainRest op operand fuel left ts with
  | case1 left ts =>
    cases hr
    obtain rfl := List.length_eq_zero_iff.mp (Nat.le_zero.mp hf)
    simp
  | case2 fuel left =>
    cases hr
    simp
  | case3 fuel left t ts ho =>
    cases hr
    rintro _ ⟨⟩
    exact ⟨ho,hp t rfl⟩
  | case4 fuel left t ts o ho ih =>
    obtain ⟨⟨right,rest'⟩,hop,hrest⟩ := bind_eq_ok.mp hr
    obtain ⟨used,-,rfl,-,-⟩ := hs _ _ _ hop
    simp only [List.length_cons,List.length_append] at hf
    exact ih right rest' hrest (by omega) (h _ _ _ hop)

theorem chain_leaves (hs : Sound s n operand) (h : Leaves p operand) :
    Leaves (fun t => op t = none ∧ p t) (chain op operand) := by
  intro ts e rest hr
  obtain ⟨⟨left,rest'⟩,hop,hrest⟩ := bind_eq_ok.mp hr
  exact chainRest_leaves hs h _ left rest' e rest hrest (Nat.le_refl _) (h _ _ _ hop)

theorem power_leaves (h : Leaves (· ≠ .caret) u) : Leaves (· ≠ .caret) (power u) := by
  intro ts e rest hr
  rw [power_eq] at hr
  obtain ⟨⟨base,rest'⟩,-,hpow⟩ := bind_eq_ok.mp hr
  by_cases hstop : Symbol.power.Stops rest'
  · rw [powerRest_stop hstop] at hpow
    cases hpow
    exact hstop
  · simp only [Symbol.Stops,not_forall,not_not] at hstop
    obtain ⟨⟨t,pos⟩,hhead,rfl⟩ := hstop
    obtain ⟨back,rfl⟩ := List.head?_eq_some_iff.mp hhead
    obtain ⟨⟨exponent,rest''⟩,he,hret⟩ := bind_eq_ok.mp hpow
    cases hret
    exact h _ _ _ he

theorem signedPower_leaves (h : Leaves (· ≠ .caret) u) :
    Leaves (· ≠ .caret) (signedPower u) := by
  intro ts e rest hr
  unfold signedPower at hr
  split at hr
  · exact h _ _ _ hr
  · obtain ⟨⟨inner,rest'⟩,hi,hret⟩ := bind_eq_ok.mp hr
    cases hret
    exact h _ _ _ hi
  · exact power_leaves h _ _ _ hr

theorem unary_leaves (n : Nat) : Leaves (· ≠ .caret) (unary n) := by
  induction n with
  | zero =>
    intro ts e rest hr
    cases hr
  | succ n ih => exact signedPower_leaves ih

theorem expression_leaves (n : Nat) :
    Leaves (fun t => additive t = none ∧ multiplicative t = none ∧ t ≠ .caret)
      (expression (unary n)) :=
  chain_leaves (chain_sound joins_multiplicative Derives.unary (unary_sound n))
    (chain_leaves (unary_sound n) (unary_leaves n))

theorem startsOperand_of_leaves {t : Token} (ht : t ≠ .rightParen)
    (h : additive t = none ∧ multiplicative t = none ∧ t ≠ .caret) : t.startsOperand = true := by
  cases t <;> simp_all [additive,multiplicative,Token.startsOperand]

/-- How deep unaries may be nested decides whether an expression is read, but not how far. -/
theorem expression_rest_unique {ts rest rest' : List Lexeme} {e e' : Expr} {n' : Nat}
    (h : expression (unary n) ts = .ok (e,rest)) (h' : expression (unary n') ts = .ok (e',rest')) :
    rest = rest' := by
  have hleaves := expression_leaves n ts e rest h
  obtain ⟨used,d,rfl,-,hd⟩ := expression_sound (unary_sound n) _ _ _ h
  have hwithin : Within d n' (expression (unary n') (used ++ rest)) (.ok (e,rest)) :=
    expression_complete hd.complete rfl (fun t ht => ⟨(hleaves t ht).2.2,(hleaves t ht).2.1⟩)
      fun t ht => (hleaves t ht).1
  by_cases hle : d ≤ n'
  · have hok := hwithin.1 hle
    rw [h'] at hok
    exact (Prod.mk.inj (Except.ok.inj hok)).2.symm
  · obtain ⟨pos,herror⟩ := hwithin.2 (by omega)
    cases h'.symm.trans herror

end Ends

/-- The tokens that open a bracket. It begins with the name of its function, if it has one. -/
inductive Opens (start : Nat) : List Lexeme → Prop
  | bracket : Opens start [⟨.leftParen,start⟩]
  | function (f : Elementary) (pos : Nat) : Opens start [⟨.function f,start⟩,⟨.leftParen,pos⟩]

/-- The place where the bracket that begins at `start` has to be closed and is not: the expression
in the bracket is read up to `rest`, which does not begin with a closing bracket. -/
structure Unclosed (ts : List Lexeme) (start : Nat) (rest : List Lexeme) : Prop where
  inside : ∃ front opening content n e, ts = front ++ (opening ++ content) ∧
    Opens start opening ∧ expression (unary n) content = .ok (e,rest)
  missing : ∀ t ∈ rest.head?, t.token ≠ .rightParen

/-- What the readers report of a list of tokens. -/
inductive Refuses : List Lexeme → Error → Prop
  | tooDeep {ts : List Lexeme} (pos limit : Nat) : Refuses ts (.tooDeep pos limit)
  | unexpectedEnd {ts : List Lexeme} : Refuses ts .unexpectedEnd
  | unexpectedToken {ts : List Lexeme} (t : Token) (pos : Nat) : Refuses ts (.unexpectedToken t pos)
  | missingParen {ts rest : List Lexeme} {start : Nat} : Unclosed ts start rest →
      Refuses ts (.missingParen start)

def Explains (read : Reader) : Prop := ∀ ts e, read ts = .error e → Refuses ts e

section Refusals
variable {op : Token → Option Operation} {operand : Reader} {s : Symbol} {n : Nat}
  {ts rest : List Lexeme} {e : Error}

theorem Refuses.prepend (h : Refuses ts e) (front : List Lexeme) : Refuses (front ++ ts) e := by
  cases h with
  | tooDeep pos limit => exact .tooDeep pos limit
  | unexpectedEnd => exact .unexpectedEnd
  | unexpectedToken t pos => exact .unexpectedToken t pos
  | missingParen h =>
    obtain ⟨⟨front',opening,content,n,e,rfl,hopen,hread⟩,hmissing⟩ := h
    exact .missingParen ⟨⟨front ++ front',opening,content,n,e,by simp,hopen,hread⟩,hmissing⟩

theorem chainRest_explains (hs : Sound s n operand) (h : Explains operand) (fuel : Nat)
    (left : Expr) (ts : List Lexeme) (hr : chainRest op operand fuel left ts = .error e) :
    Refuses ts e := by
  fun_induction chainRest op operand fuel left ts with
  | case1 | case2 | case3 => cases hr
  | case4 fuel left t ts o ho ih =>
    rcases bind_eq_error.mp hr with hop | ⟨⟨right,rest'⟩,hop,hrest⟩
    · exact (h _ _ hop).prepend [t]
    · obtain ⟨used,-,rfl,-,-⟩ := hs _ _ _ hop
      exact (ih right rest' hrest).prepend (t::used)

theorem chain_explains (hs : Sound s n operand) (h : Explains operand) :
    Explains (chain op operand) := by
  intro ts e hr
  rcases bind_eq_error.mp hr with hop | ⟨⟨left,rest⟩,hop,hrest⟩
  · exact h _ _ hop
  · obtain ⟨used,-,rfl,-,-⟩ := hs _ _ _ hop
    exact (chainRest_explains hs h _ left rest hrest).prepend used

theorem expression_explains (h : Explains (unary n)) : Explains (expression (unary n)) :=
  chain_explains (chain_sound joins_multiplicative Derives.unary (unary_sound n))
    (chain_explains (unary_sound n) h)

theorem bracketed_explains (h : Explains (unary n)) {start : Nat} {opening : List Lexeme}
    (hopen : Opens start opening) (hr : bracketed (unary n) start ts = .error e) :
    Refuses (opening ++ ts) e := by
  unfold bracketed at hr
  split at hr
  · cases hr
    exact .unexpectedToken _ _
  · rcases bind_eq_error.mp hr with hinner | ⟨⟨inner,rest⟩,hinner,hclose⟩
    · exact (expression_explains h _ _ hinner).prepend opening
    · split at hclose
      · cases hclose
      · rename_i hmissing
        cases hclose
        have hnone : ∀ t ∈ rest.head?, t.token ≠ .rightParen := by
          rintro ⟨t,pos⟩ hhead rfl
          obtain ⟨back,rfl⟩ := List.head?_eq_some_iff.mp hhead
          exact hmissing _ _ _ rfl
        exact .missingParen ⟨⟨[],opening,_,n,inner,rfl,hopen,hinner⟩,hnone⟩

theorem primary_explains (h : Explains (unary n)) : Explains (primary (unary n)) := by
  intro ts e hr
  rcases ts with _ | ⟨⟨token,start⟩,ts⟩
  · cases hr
    exact .unexpectedEnd
  cases token with
  | number | var | constant => cases hr
  | function f =>
    simp only [primary] at hr
    split at hr
    · rename_i pos ts
      rcases bind_eq_error.mp hr with hinner | ⟨_,-,hret⟩
      · exact bracketed_explains h (.function f pos) hinner
      · cases hret
    · cases hr
      exact .unexpectedToken _ _
  | leftParen => exact bracketed_explains h .bracket hr
  | plus | minus | star | slash | caret | rightParen =>
    cases hr
    exact .unexpectedToken _ _

theorem power_explains (h : Explains (unary n)) : Explains (power (unary n)) := by
  intro ts e hr
  rcases bind_eq_error.mp hr with hbase | ⟨⟨base,rest⟩,hbase,hpow⟩
  · exact primary_explains h _ _ hbase
  · obtain ⟨used,-,rfl,-,-⟩ := primary_sound (unary_sound n) _ _ _ hbase
    split at hpow
    · rename_i base pos rest hc
      cases hc
      rcases bind_eq_error.mp hpow with hexponent | ⟨_,-,hret⟩
      · rw [List.append_cons]
        exact (h _ _ hexponent).prepend _
      · cases hret
    · cases hpow

theorem unary_explains (n : Nat) : Explains (unary n) := by
  induction n with
  | zero =>
    intro ts e hr
    cases hr
    exact .tooDeep _ _
  | succ n ih =>
    intro ts e hr
    rw [unary] at hr
    unfold signedPower at hr
    split at hr
    · exact (ih _ _ hr).prepend [_]
    · rcases bind_eq_error.mp hr with hinner | ⟨_,-,hret⟩
      · exact (ih _ _ hinner).prepend [_]
      · cases hret
    · exact power_explains ih _ _ hr

end Refusals
end Formula
end NumericWorkbench
