import NumericWorkbench.Formula.Parse
import Mathlib.Data.List.Chain
/-! The grammar of formulas as a relation between tokens and trees, without any reading order. A
repetition `{(+|-) term}` groups from the left, so it is written as a rule that begins with the
same symbol again. -/
namespace NumericWorkbench
namespace Formula

/-- The symbols of the grammar, from the loosest binding to the tightest. -/
inductive Symbol where
  | expression | term | unary | power | primary
deriving DecidableEq

/-- The tokens have a derivation from the symbol, with a tree and with a nesting: the largest
number of nodes `unary` that lie inside one another. -/
inductive Derives : Symbol → List Token → Expr → Nat → Prop
  | term {ts : List Token} {e : Expr} {d : Nat} :
      Derives .term ts e d → Derives .expression ts e d
  | add {ts us : List Token} {l r : Expr} {d d' : Nat} :
      Derives .expression ts l d → Derives .term us r d' →
      Derives .expression (ts ++ .plus::us) (.binary .add l r) (max d d')
  | sub {ts us : List Token} {l r : Expr} {d d' : Nat} :
      Derives .expression ts l d → Derives .term us r d' →
      Derives .expression (ts ++ .minus::us) (.binary .sub l r) (max d d')
  | unary {ts : List Token} {e : Expr} {d : Nat} :
      Derives .unary ts e d → Derives .term ts e d
  | mul {ts us : List Token} {l r : Expr} {d d' : Nat} :
      Derives .term ts l d → Derives .unary us r d' →
      Derives .term (ts ++ .star::us) (.binary .mul l r) (max d d')
  | div {ts us : List Token} {l r : Expr} {d d' : Nat} :
      Derives .term ts l d → Derives .unary us r d' →
      Derives .term (ts ++ .slash::us) (.binary .div l r) (max d d')
  /-- A plus sign leaves no trace. -/
  | plus {ts : List Token} {e : Expr} {d : Nat} :
      Derives .unary ts e d → Derives .unary (.plus::ts) e (d+1)
  /-- A minus sign is a product with `-1`, unless a constant follows, -/
  | minus {ts : List Token} {e : Expr} {d : Nat} :
      Derives .unary ts e d → (∀ v, e ≠ .const v) →
      Derives .unary (.minus::ts) (.binary .mul (.const (-1)) e) (d+1)
  /-- which takes the sign itself. -/
  | minusConst {ts : List Token} {v : Float} {d : Nat} :
      Derives .unary ts (.const v) d → Derives .unary (.minus::ts) (.const (-v)) (d+1)
  | power {ts : List Token} {e : Expr} {d : Nat} :
      Derives .power ts e d → Derives .unary ts e (d+1)
  | primary {ts : List Token} {e : Expr} {d : Nat} :
      Derives .primary ts e d → Derives .power ts e d
  | pow {ts us : List Token} {b x : Expr} {d d' : Nat} :
      Derives .primary ts b d → Derives .unary us x d' →
      Derives .power (ts ++ .caret::us) (.binary .pow b x) (max d d')
  | number (v : Float) : Derives .primary [.number v] (.const v) 0
  | var : Derives .primary [.var] .var 0
  | constant (c : Constant) : Derives .primary [.constant c] (.const c.value) 0
  | function (f : Elementary) {ts : List Token} {e : Expr} {d : Nat} :
      Derives .expression ts e d →
      Derives .primary (.function f::.leftParen::(ts ++ [.rightParen])) (.apply f e) d
  | bracket {ts : List Token} {e : Expr} {d : Nat} :
      Derives .expression ts e d → Derives .primary (.leftParen::(ts ++ [.rightParen])) e d

def Symbol.begins : Symbol → Token → Bool
  | .power,t | .primary,t => t.startsOperand
  | _,t => t.startsOperand || t = .plus || t = .minus

theorem Expr.signed_of_ne_const {e : Expr} (h : ∀ v, e ≠ .const v) :
    e.signed = .binary .mul (.const (-1)) e := by
  cases e with
  | const v => exact absurd rfl (h v)
  | var | binary | apply => rfl

/-- No operand ends directly in front of another one. -/
def Apart (ts : List Token) : Prop :=
  ts.IsChain fun a b => (a.endsOperand && b.startsOperand) = false

theorem Apart.cons {t : Token} {ts : List Token} (ht : t.endsOperand = false) (h : Apart ts) :
    Apart (t::ts) :=
  List.isChain_cons.mpr ⟨fun _ _ => by simp [ht],h⟩

theorem Apart.append {t : Token} {ts us : List Token} (ht : t.startsOperand = false)
    (h : Apart ts) (h' : Apart (t::us)) : Apart (ts ++ t::us) := by
  refine List.isChain_append.mpr ⟨h,h',fun a _ b hb => ?_⟩
  cases hb
  simp [ht]

namespace Derives
variable {s : Symbol} {ts : List Token} {e : Expr} {d : Nat}

theorem signed (h : Derives .unary ts e d) : Derives .unary (.minus::ts) e.signed (d+1) := by
  cases e with
  | const v => exact .minusConst h
  | var | binary | apply => exact .minus h (by simp)

theorem exists_begin (h : Derives s ts e d) : ∃ t us, ts = t::us ∧ s.begins t = true := by
  induction h with
  | add _ _ ih _ | sub _ _ ih _ | mul _ _ ih _ | div _ _ ih _ | pow _ _ ih _ =>
    obtain ⟨t,us,rfl,ht⟩ := ih
    exact ⟨t,_,rfl,ht⟩
  | term _ ih | unary _ ih | primary _ ih => exact ih
  | power _ ih =>
    obtain ⟨t,us,rfl,ht⟩ := ih
    exact ⟨t,us,rfl,by simp_all [Symbol.begins]⟩
  | plus | minus | minusConst => exact ⟨_,_,rfl,rfl⟩
  | number | var | constant | function | bracket => exact ⟨_,_,rfl,rfl⟩

theorem ne_nil (h : Derives s ts e d) : ts ≠ [] := by
  obtain ⟨t,us,rfl,-⟩ := h.exists_begin
  exact List.cons_ne_nil t us

theorem apart (h : Derives s ts e d) : Apart ts := by
  induction h with
  | term _ ih | unary _ ih | power _ ih | primary _ ih => exact ih
  | add _ _ ihl ihr | sub _ _ ihl ihr | mul _ _ ihl ihr | div _ _ ihl ihr | pow _ _ ihl ihr =>
    exact .append rfl ihl (.cons rfl ihr)
  | plus _ ih | minus _ _ ih | minusConst _ ih => exact .cons rfl ih
  | number | var | constant => exact List.isChain_singleton _
  | function f _ ih => exact .cons rfl (.cons rfl (.append rfl ih (List.isChain_singleton _)))
  | bracket _ ih => exact .cons rfl (.append rfl ih (List.isChain_singleton _))

theorem exists_end (h : Derives s ts e d) : ∃ us t, ts = us ++ [t] ∧ t.endsOperand = true := by
  induction h with
  | term _ ih | unary _ ih | power _ ih | primary _ ih => exact ih
  | add _ _ _ ih | sub _ _ _ ih | mul _ _ _ ih | div _ _ _ ih | pow _ _ _ ih =>
    obtain ⟨us,t,rfl,ht⟩ := ih
    exact ⟨_,t,(List.append_assoc _ (_::us) [t]).symm,ht⟩
  | plus _ ih | minus _ _ ih | minusConst _ ih =>
    obtain ⟨us,t,rfl,ht⟩ := ih
    exact ⟨_::us,t,rfl,ht⟩
  | number | var | constant => exact ⟨[],_,rfl,rfl⟩
  | @function f ts => exact ⟨.function f::.leftParen::ts,.rightParen,rfl,rfl⟩
  | @bracket ts => exact ⟨.leftParen::ts,.rightParen,rfl,rfl⟩

end Derives

/-- The operators of a chain join a chain `s` and an operand `s'` to a longer chain. -/
def Joins (op : Token → Option Operation) (s s' : Symbol) : Prop :=
  ∀ t o ts us l r d d', op t = some o → Derives s ts l d → Derives s' us r d' →
    Derives s (ts ++ t::us) (.binary o l r) (max d d')

theorem joins_additive : Joins additive .expression .term := by
  intro t o ts us l r d d' ho hl hr
  cases t <;> simp only [additive,Option.some.injEq,reduceCtorEq] at ho <;> subst ho
  · exact .add hl hr
  · exact .sub hl hr

theorem joins_multiplicative : Joins multiplicative .term .unary := by
  intro t o ts us l r d d' ho hl hr
  cases t <;> simp only [multiplicative,Option.some.injEq,reduceCtorEq] at ho <;> subst ho
  · exact .mul hl hr
  · exact .div hl hr

end Formula
end NumericWorkbench
