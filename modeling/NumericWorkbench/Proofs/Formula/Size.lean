import NumericWorkbench.Proofs.Formula.Answers
import NumericWorkbench.Proofs.Formula.Depth
/-! How large the tree of a formula is. Its nodes are paid for by the tokens, so that the limit on
the tokens bounds the tree and each recursion along it. The limit on the nesting does not: a sum or a
product may be as long as the tokens allow, and each operand makes its tree higher. -/
namespace NumericWorkbench
namespace Formula

/-- The nodes that tokens pay for. A minus sign may stand for a product with `-1`, which has two
nodes besides its operand. -/
def allowance (ts : List Token) : Nat := ts.length+ts.count .minus

section Nodes
variable {ts us : List Token} {e l r : Expr}

theorem allowance_append (ts us : List Token) :
    allowance (ts ++ us) = allowance ts+allowance us := by
  simp only [allowance,List.length_append,List.count_append]
  omega

theorem allowance_minus (ts : List Token) : allowance (.minus::ts) = allowance ts+2 := by
  simp only [allowance,List.length_cons,List.count_cons_self]
  omega

theorem allowance_lt_cons (t : Token) (ts : List Token) : allowance ts < allowance (t::ts) := by
  have hcount : ts.count .minus ≤ (t::ts).count .minus := List.count_le_count_cons
  simp only [allowance,List.length_cons]
  omega

theorem allowance_le (ts : List Token) : allowance ts ≤ 2*ts.length := by
  have hcount : ts.count .minus ≤ ts.length := List.count_le_length
  rw [allowance]
  omega

theorem nodeCount_binary_le (hl : l.nodeCount ≤ allowance ts) (hr : r.nodeCount ≤ allowance us)
    (o : Operation) (t : Token) : (Expr.binary o l r).nodeCount ≤ allowance (ts ++ t::us) := by
  have ht := allowance_lt_cons t us
  rw [Expr.nodeCount,allowance_append]
  omega

theorem allowance_le_bracket (ts : List Token) :
    allowance ts ≤ allowance (.leftParen::(ts ++ [.rightParen])) := by
  have ht := allowance_lt_cons .leftParen (ts ++ [.rightParen])
  rw [allowance_append] at ht
  omega

theorem Derives.nodeCount_le {s : Symbol} {d : Nat} (h : Derives s ts e d) :
    e.nodeCount ≤ allowance ts := by
  induction h with
  | term _ ih | unary _ ih | power _ ih | primary _ ih => exact ih
  | add _ _ ihl ihr | sub _ _ ihl ihr | mul _ _ ihl ihr | div _ _ ihl ihr | pow _ _ ihl ihr =>
    exact nodeCount_binary_le ihl ihr _ _
  | plus _ ih => exact ih.trans (allowance_lt_cons .plus _).le
  | minus _ _ ih =>
    -- the product and its first factor are the two nodes of the sign
    rw [allowance_minus,Expr.nodeCount,Expr.nodeCount]
    omega
  | minusConst _ ih => exact ih.trans (allowance_lt_cons .minus _).le
  | number | var | constant => exact Nat.le_refl 1
  | @function f ts e d _ ih =>
    have hname := allowance_lt_cons (.function f) (.leftParen::(ts ++ [.rightParen]))
    have hinside := allowance_le_bracket ts
    rw [Expr.nodeCount]
    omega
  | bracket _ ih => exact ih.trans (allowance_le_bracket _)

end Nodes

/-- A chain of `m` operators and the operands between them, none of which needs more than `n` nested
unaries. -/
inductive ChainOf (op : Token → Option Operation) (s : Symbol) (n : Nat) : List Token → Nat → Prop
  | operand {ts : List Token} {e : Expr} {d : Nat} :
      Derives s ts e d → d ≤ n → ChainOf op s n ts 0
  | more {ts us : List Token} {t : Token} {e : Expr} {m d : Nat} :
      ChainOf op s n ts m → (op t).isSome → Derives s us e d → d ≤ n →
      ChainOf op s n (ts ++ t::us) (m+1)

section Chains
variable {op : Token → Option Operation} {s s' : Symbol} {ts us : List Token} {n m d : Nat}

/-- Each operand makes the tree higher, and none adds to the nesting of the others. -/
theorem ChainOf.exists_derivation (join : Joins op s s')
    (first : ∀ {ts e d}, Derives s' ts e d → Derives s ts e d) (h : ChainOf op s' n ts m) :
    ∃ e d, d ≤ n ∧ Derives s ts e d ∧ m < e.height := by
  induction h with
  | @operand ts e d he hd => exact ⟨e,d,hd,first he,e.height_pos⟩
  | @more ts us t r m d' hchain ho hr hd' ih =>
    obtain ⟨l,d,hd,hl,hheight⟩ := ih
    obtain ⟨o,ho⟩ := Option.isSome_iff_exists.mp ho
    refine ⟨_,_,Nat.max_le.mpr ⟨hd,hd'⟩,join _ _ _ _ _ _ _ _ ho hl hr,?_⟩
    rw [Expr.height]
    omega

theorem chainOf_replicate {e : Expr} (he : Derives s us e d) (hd : d ≤ n) {t : Token}
    (ht : (op t).isSome) (m : Nat) :
    ChainOf op s n (us ++ (List.replicate m (t::us)).flatten) m := by
  induction m with
  | zero => simpa using ChainOf.operand he hd
  | succ m ih => simpa [List.replicate_succ'] using ih.more ht he hd

end Chains

/-- A sum of terms or a product of unaries with `m` operators. The operands respect the limit on the
nesting, each for itself. -/
def IsFlat (ts : List Token) (m : Nat) : Prop :=
  ChainOf additive .term 256 ts m ∨ ChainOf multiplicative .unary 256 ts m

theorem IsFlat.exists_derivation {ts : List Token} {m : Nat} (h : IsFlat ts m) :
    ∃ e d, d ≤ 256 ∧ Derives .expression ts e d ∧ m < e.height := by
  obtain hsum | hproduct := h
  · exact hsum.exists_derivation joins_additive Derives.term
  · obtain ⟨e,d,hd,he,hheight⟩ := hproduct.exists_derivation joins_multiplicative Derives.unary
    exact ⟨e,d,hd,.term he,hheight⟩

section Limits
variable {ts : List Lexeme} {e : Expr}

theorem nodeCount_le_of_parseTokens (h : parseTokens ts = .ok e) :
    e.nodeCount ≤ ts.length+(ts.map Lexeme.token).count .minus ∧ e.nodeCount ≤ 8192 := by
  obtain ⟨-,hshort⟩ := length_of_parseTokens h
  obtain ⟨d,hd⟩ := derives_of_parseTokens h
  have hnodes := hd.nodeCount_le
  have hbound := allowance_le (ts.map Lexeme.token)
  rw [allowance,List.length_map] at hnodes hbound
  rw [maxTokens] at hshort
  omega

theorem parse_of_compile {source : String} {f : Formula} (h : compile source = .ok f) :
    parse source = .ok f.expr := by
  obtain ⟨e,hparse,hreturn⟩ := bind_eq_ok.mp h
  split at hreturn
  · cases hreturn
  · cases hreturn
    exact hparse

theorem height_le_of_compile {source : String} {f : Formula} (h : compile source = .ok f) :
    f.expr.height ≤ 8192 := by
  obtain ⟨ts,-,hparse⟩ := bind_eq_ok.mp (parse_of_compile h)
  exact f.expr.height_le_nodeCount.trans (nodeCount_le_of_parseTokens hparse).2

theorem parseTokens_of_flat {m : Nat} (h : IsFlat (ts.map Lexeme.token) m)
    (short : ts.length ≤ 4096) : ∃ e, parseTokens ts = .ok e ∧ m < e.height := by
  obtain ⟨e,d,hd,he,hheight⟩ := h.exists_derivation
  have hne : ts ≠ [] := fun hnil => he.ne_nil (List.map_eq_nil_iff.mpr hnil)
  exact ⟨e,(he.parseTokens_within hne short).1 hd,hheight⟩

end Limits

/-- The limit on the tokens bounds the tree. It has no more nodes than there are tokens, with every
minus sign counted twice, so the value and the text of a compiled formula need no more than 8192 calls
that are open at one time. The limit on the nesting gives no such bound: a sum or a product whose
operands respect it has a tree, however many operands there are, and needs more calls than it has
operators. -/
theorem parseTokens_nodeCount :
    (∀ ts e, parseTokens ts = .ok e →
      e.nodeCount ≤ ts.length+(ts.map Lexeme.token).count .minus ∧ e.nodeCount ≤ 8192) ∧
    (∀ source (f : Formula), compile source = .ok f →
      (∀ x, (evaluation x).runWithin 8192 f.expr = some (f.eval x)) ∧
      ∀ name, (printing name).runWithin 8192 f.expr = some (f.expr.chars name)) ∧
    ∀ ts m, IsFlat (ts.map Lexeme.token) m → ts.length ≤ 4096 → ∃ e, parseTokens ts = .ok e ∧
      (∀ x, (evaluation x).runWithin m e = none) ∧ ∀ name, (printing name).runWithin m e = none := by
  refine ⟨fun ts e h => nodeCount_le_of_parseTokens h,?_,?_⟩
  · intro source f h
    have hheight := height_le_of_compile h
    refine ⟨fun x => ?_,fun name => ?_⟩
    · rw [(evaluation x).runWithin_of_le hheight,Recursion.run_evaluation,eval]
    · rw [(printing name).runWithin_of_le hheight,Recursion.run_printing]
  · intro ts m hflat short
    obtain ⟨e,hparse,hheight⟩ := parseTokens_of_flat hflat short
    exact ⟨e,hparse,fun x => (evaluation x).runWithin_of_lt hheight,
      fun name => (printing name).runWithin_of_lt hheight⟩

/-- Each of two signs in front of a variable brings the two nodes that it pays for. In a sum the
nesting has no say: this one has far more operators than levels are allowed. -/
theorem parseTokens_nodeCount_signs :
    let signs : List Lexeme := [⟨.minus,0⟩,⟨.minus,1⟩,⟨.var,2⟩]
    let sum (m : Nat) : List Lexeme := ⟨.var,0⟩::(List.replicate m [⟨.plus,0⟩,⟨.var,0⟩]).flatten
    (∃ e, parseTokens signs = .ok e ∧ e.nodeCount = 3+2 ∧ e.nodeCount ≤ 3+2 ∧ e.nodeCount ≤ 8192) ∧
    (∃ f, compile "-(-x)" = .ok f ∧
      (∀ x, (evaluation x).runWithin 8192 f.expr = some (f.eval x)) ∧
      ∀ name, (printing name).runWithin 8192 f.expr = some (f.expr.chars name)) ∧
    IsFlat ((sum 2000).map Lexeme.token) 2000 ∧ (sum 2000).length ≤ 4096 ∧
    ∃ e, parseTokens (sum 2000) = .ok e ∧ (∀ x, (evaluation x).runWithin 2000 e = none) ∧
      ∀ name, (printing name).runWithin 2000 e = none := by
  intro signs sum
  obtain ⟨hnodes,hcompile,hflat⟩ := parseTokens_nodeCount
  let e : Expr := .binary .mul (.const (-1)) (.binary .mul (.const (-1)) .var)
  have hparse : parseTokens signs = .ok e := rfl
  have hcompiled : compile "-(-x)" = .ok ⟨"-(-x)",e⟩ := by decide +kernel
  have hvar : Derives .term [.var] .var 1 := .unary (.power (.primary .var))
  have hsum (m : Nat) : IsFlat ((sum m).map Lexeme.token) m := by
    left
    simpa [sum] using chainOf_replicate hvar (by decide) (t := .plus) rfl m
  have hlength (m : Nat) : (sum m).length = m*2+1 := by simp [sum]
  have hshort : (sum 2000).length ≤ 4096 := by
    rw [hlength]
    decide
  exact ⟨⟨e,hparse,rfl,hnodes _ _ hparse⟩,⟨_,hcompiled,hcompile _ _ hcompiled⟩,hsum 2000,hshort,
    hflat _ _ (hsum 2000) hshort⟩

end Formula
end NumericWorkbench
