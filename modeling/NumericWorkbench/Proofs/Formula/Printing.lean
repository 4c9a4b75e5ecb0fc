import NumericWorkbench.Proofs.Formula.Parsing
import NumericWorkbench.Proofs.Formula.Scanning
import NumericWorkbench.Proofs.Number.Written
/-! The text of an expression read back. Brackets keep every operation together, but a constant
stands without them, and so a minus sign in front of a base goes to the whole power. -/
namespace NumericWorkbench
namespace Formula
open Number

def Operation.token : Operation → Token
  | .add => .plus
  | .sub => .minus
  | .mul => .star
  | .div => .slash
  | .pow => .caret

namespace Expr

def subtrees : Expr → List Expr
  | var => [var]
  | const v => [const v]
  | binary op l r => binary op l r::(l.subtrees ++ r.subtrees)
  | apply f a => apply f a::a.subtrees

def compact : Expr → List Char
  | var => ['x']
  | const v => plainChars v
  | binary op l r => '('::(l.compact ++ op.symbol::(r.compact ++ [')']))
  | apply f a => f.name.toList ++ '('::(a.compact ++ [')'])

def tokens : Expr → List Token
  | var => [.var]
  | const v => if signBit v then [.minus,.number (-v)] else [.number v]
  | binary op l r => .leftParen::(l.tokens ++ op.token::(r.tokens ++ [.rightParen]))
  | apply f a => .function f::.leftParen::(a.tokens ++ [.rightParen])

def isNegative : Expr → Bool
  | const v => signBit v
  | _ => false

def opposite : Expr → Expr
  | const v => const (-v)
  | e => e

/-- The expression that the text of an expression is read as. The sign in front of a base is that of
the whole power, which is a product with `-1`. -/
def reread : Expr → Expr
  | var => var
  | const v => const v
  | binary op l r =>
    if op = .pow ∧ l.isNegative then neg (binary .pow l.opposite r.reread)
    else binary op l.reread r.reread
  | apply f a => apply f a.reread

/-- The constants of an expression are finite, so that their texts can be read back. -/
def Readable (e : Expr) : Prop := ∀ v, const v ∈ e.subtrees → v.isFinite = true

namespace Readable
variable {op : Operation} {f : Elementary} {l r a : Expr} {v : Float}

theorem left (h : (binary op l r).Readable) : l.Readable :=
  fun v hv => h v (by simp [subtrees,hv])

theorem right (h : (binary op l r).Readable) : r.Readable :=
  fun v hv => h v (by simp [subtrees,hv])

theorem argument (h : (apply f a).Readable) : a.Readable :=
  fun v hv => h v (by simp [subtrees,hv])

theorem isFinite (h : (const v).Readable) : v.isFinite = true := h v (by simp [subtrees])

theorem exists_decimal (h : (const v).Readable) : ∃ body, IsDecimal body ∧
    plainChars v = sign (signBit v) ++ body ∧
    readMagnitude body = some (if signBit v then -v else v) :=
  plainChars_of_read h.isFinite (read_written h.isFinite).1

end Readable

theorem reread_eq_self_iff (e : Expr) : e.reread = e ↔
    ∀ v t, binary .pow (const v) t ∈ e.subtrees → signBit v = false := by
  induction e with
  | var | const v => simp [reread,subtrees]
  | apply f a ih => simp [reread,subtrees,ih]
  | binary op l r ihl ihr =>
    rw [reread]
    split
    · rename_i hsigned
      obtain ⟨rfl,hl⟩ := hsigned
      refine iff_of_false (by simp [neg]) fun h => ?_
      cases l with
      | const v => simp [isNegative,h v r (by simp [subtrees])] at hl
      | var | binary | apply => simp [isNegative] at hl
    · rename_i hplain
      rw [binary.injEq,ihl,ihr]
      constructor
      · rintro ⟨-,hl,hr⟩ v t hmem
        rw [subtrees,List.mem_cons,List.mem_append] at hmem
        rcases hmem with hmem | hmem | hmem
        · cases hmem
          simpa [isNegative] using hplain
        · exact hl v t hmem
        · exact hr v t hmem
      · intro h
        exact ⟨rfl,fun v t hmem => h v t (by simp [subtrees,hmem]),
          fun v t hmem => h v t (by simp [subtrees,hmem])⟩

end Expr

section Scanning
variable {e : Expr} {rest : List Char} {ts : List Token}

theorem normalize_chars (h : e.Readable) : normalize (e.chars ['x']) = e.compact := by
  induction e with
  | var => rfl
  | const v =>
    obtain ⟨body,hbody,htext,-⟩ := h.exists_decimal
    have hsign : normalize (sign (signBit v)) = sign (signBit v) := by cases signBit v <;> rfl
    rw [Expr.chars,Expr.compact,htext,normalize_append,normalize_decimal hbody,hsign]
  | binary op l r ihl ihr =>
    have hop : normalize [op.symbol] = [op.symbol] := by cases op <;> rfl
    rw [Expr.chars,normalize_cons rfl,normalize_append,normalize_blank rfl,normalize_cons hop,
      normalize_blank rfl,normalize_append,ihl h.left,ihr h.right]
    rfl
  | apply f a ih =>
    rw [Expr.chars,normalize_append,normalize_cons rfl,normalize_append,ih h.argument,
      normalize_spelling f.name_mem_spellings]
    rfl

theorem tokenAt_symbol (op : Operation) {cs : List Char} (hcs : cs.head? ≠ some '*') (pos : Nat) :
    tokenAt pos op.symbol cs = .ok (op.token,1) := by
  cases op with
  | mul => simp [tokenAt,Operation.symbol,Operation.token,hcs]
  | add | sub | div | pow => rfl

theorem head?_compact (h : e.Readable) (rest : List Char) :
    (e.compact ++ rest).head? ≠ some '*' := by
  cases e with
  | var | binary => simp [Expr.compact]
  | apply f a => cases f <;> simp [Expr.compact,Elementary.name]
  | const v =>
    obtain ⟨body,hbody,htext,-⟩ := h.exists_decimal
    obtain ⟨c,cs,rfl,hc⟩ := hbody.exists_digit
    have hstar : c ≠ '*' := by
      rintro rfl
      cases hc
    rw [Expr.compact,htext]
    cases signBit v <;> simp [sign,hstar]

theorem spelling_append (h : e.Readable) (hrest : EndsNumber rest) (hts : Spelling rest ts) :
    Spelling (e.compact ++ rest) (e.tokens ++ ts) := by
  have hends (rest : List Char) : EndsNumber (')'::rest) := by
    rintro c ⟨⟩
    decide
  induction e generalizing rest ts with
  | var => exact .var hts
  | const v =>
    obtain ⟨body,hbody,htext,hvalue⟩ := h.exists_decimal
    have hnumber := Spelling.number hbody hvalue hrest hts
    rw [Expr.compact,Expr.tokens,htext]
    cases hsign : signBit v with
    | true =>
      rw [hsign] at hnumber
      exact .single (fun _ => rfl) hnumber
    | false =>
      rw [hsign] at hnumber
      exact hnumber
  | binary op l r ihl ihr =>
    have hop : EndsNumber (op.symbol::(r.compact ++ ')'::rest)) := by
      rintro c ⟨⟩
      cases op <;> decide
    have hclose := Spelling.single (c := ')') (fun _ => rfl) hts
    have hright := ihr h.right (hends rest) hclose
    have hoperation := hright.single (tokenAt_symbol op (head?_compact h.right _))
    have hleft := ihl h.left hop hoperation
    simpa [Expr.compact,Expr.tokens] using hleft.single (c := '(') fun _ => rfl
  | apply f a ih =>
    have hclose := Spelling.single (c := ')') (fun _ => rfl) hts
    have hargument := ih h.argument (hends rest) hclose
    simpa [Expr.compact,Expr.tokens] using
      Spelling.function f.name_mem_spellings (hargument.single (c := '(') fun _ => rfl)

theorem Apart.explicit (h : Apart ts) : Explicit ts :=
  h.imp fun a b hab => by simp [Token.juxtaposed,hab]

theorem explicit_tokens (e : Expr) : Explicit e.tokens := by
  refine Apart.explicit ?_
  induction e with
  | var => exact List.isChain_singleton _
  | const v =>
    rw [Expr.tokens]
    split
    · exact .cons rfl (List.isChain_singleton _)
    · exact List.isChain_singleton _
  | binary op l r ihl ihr =>
    have hright : Apart (op.token::(r.tokens ++ [.rightParen])) :=
      .cons (by cases op <;> rfl) (.append rfl ihr (List.isChain_singleton _))
    exact .cons rfl (.append (by cases op <;> rfl) ihl hright)
  | apply f a ih => exact .cons rfl (.cons rfl (.append rfl ih (List.isChain_singleton _)))

end Scanning

theorem Derives.unary_of_primary {ts : List Token} {e : Expr} {d : Nat}
    (h : Derives .primary ts e d) : Derives .unary ts e (d+1) :=
  .power (.primary h)

/-- An operation between two operands. Only a power asks for more on its left side. -/
theorem derives_operation {op : Operation} {ts us : List Token} {l r : Expr} {d d' : Nat}
    (hbase : op = .pow → ∃ d, Derives .primary ts l d) (hl : Derives .unary ts l d)
    (hr : Derives .unary us r d') :
    ∃ d, Derives .expression (ts ++ op.token::us) (.binary op l r) d := by
  cases op with
  | add => exact ⟨_,.add (.term (.unary hl)) (.unary hr)⟩
  | sub => exact ⟨_,.sub (.term (.unary hl)) (.unary hr)⟩
  | mul => exact ⟨_,.term (.mul (.unary hl) hr)⟩
  | div => exact ⟨_,.term (.div (.unary hl) hr)⟩
  | pow =>
    obtain ⟨d,hd⟩ := hbase rfl
    exact ⟨_,.term (.unary (.power (.pow hd hr)))⟩

theorem derives_signed_power {v : Float} (hsign : signBit v = true) {us : List Token} {r : Expr}
    {d : Nat} (hr : Derives .unary us r d) :
    ∃ d, Derives .expression ((Expr.const v).tokens ++ Operation.pow.token::us)
      (Expr.binary .pow (.const (-v)) r).neg d := by
  have hpower := Derives.power (.pow (.number (-v)) hr)
  rw [Expr.tokens,if_pos hsign]
  exact ⟨_,.term (.unary (.minus hpower (by simp)))⟩

theorem derives_tokens {e : Expr} (h : e.Readable) :
    (e.isNegative = false → ∃ d, Derives .primary e.tokens e.reread d) ∧
      ∃ d, Derives .unary e.tokens e.reread d := by
  induction e with
  | var => exact ⟨fun _ => ⟨0,.var⟩,1,Derives.var.unary_of_primary⟩
  | const v =>
    rw [Expr.tokens,Expr.isNegative,Expr.reread]
    cases hsign : signBit v with
    | false => exact ⟨fun _ => ⟨0,.number v⟩,1,(Derives.number v).unary_of_primary⟩
    | true =>
      have hminus := (Derives.number (-v)).unary_of_primary.minusConst
      rw [neg_neg h.isFinite] at hminus
      exact ⟨by simp,_,hminus⟩
  | binary op l r ihl ihr =>
    obtain ⟨hbase,d,hl⟩ := ihl h.left
    obtain ⟨-,d',hr⟩ := ihr h.right
    obtain ⟨d,hd⟩ : ∃ d, Derives .expression (l.tokens ++ op.token::r.tokens)
        (Expr.binary op l r).reread d := by
      rw [Expr.reread]
      split
      · rename_i hsigned
        obtain ⟨rfl,hnegative⟩ := hsigned
        cases l with
        | const v => exact derives_signed_power hnegative hr
        | var | binary | apply => cases hnegative
      · rename_i hplain
        refine derives_operation (fun hop => hbase ?_) hl hr
        simpa [hop] using hplain
    have hbracket := Derives.bracket hd
    simp only [List.append_assoc,List.cons_append] at hbracket
    exact ⟨fun _ => ⟨d,hbracket⟩,_,hbracket.unary_of_primary⟩
  | apply f a ih =>
    obtain ⟨d,hd⟩ := (ih h.argument).2
    have hfunction := Derives.function f (.term (.unary hd))
    exact ⟨fun _ => ⟨d,hfunction⟩,_,hfunction.unary_of_primary⟩

theorem tokens_ne_nil (e : Expr) : e.tokens ≠ [] := by
  cases e with
  | const v =>
    rw [Expr.tokens]
    split <;> simp
  | var | binary | apply => simp [Expr.tokens]

/-- The text of an expression with finite constants can be read, unless it is too long or nested too
deep. It is read as the expression itself, but for the powers of constants whose sign bit is set:
what is read in their place is `-1` times the power of the constant without its sign. -/
theorem parse_text (e : Expr) (finite : ∀ v, .const v ∈ e.subtrees → v.isFinite = true)
    (short : ∀ tokens limit, parse e.text ≠ .error (.tooLong tokens limit))
    (shallow : ∀ pos limit, parse e.text ≠ .error (.tooDeep pos limit)) :
    parse e.text = .ok e.reread ∧
      (parse e.text = .ok e ↔
        ∀ v t, .binary .pow (.const v) t ∈ e.subtrees → signBit v = false) := by
  have hreadable : e.Readable := finite
  have hspelling : Spelling (normalize e.text.toList) e.tokens := by
    have happend : Spelling (e.compact ++ []) (e.tokens ++ []) :=
      spelling_append hreadable (by simp [EndsNumber]) .nil
    rw [List.append_nil,List.append_nil] at happend
    have htext : e.text.toList = e.chars ['x'] := by
      rw [Expr.text,Expr.textWith,String.toList_ofList]
      rfl
    rwa [htext,normalize_chars hreadable]
  obtain ⟨ls,hls,htokens⟩ := tokenize_of_spelling hspelling (explicit_tokens e)
  have hparse : parse e.text = parseTokens ls := by rw [parse,hls,ok_bind]
  have hne : ls ≠ [] := by
    rintro rfl
    exact tokens_ne_nil e htokens.symm
  have hlength : ls.length ≤ maxTokens := by
    by_contra hlong
    refine short ls.length maxTokens ?_
    rw [hparse,parseTokens,if_neg (by simpa using hne),if_pos (by omega)]
  obtain ⟨-,d,hd⟩ := derives_tokens hreadable
  rw [← htokens] at hd
  have hwithin := (Derives.term (.unary hd)).parseTokens_within hne hlength
  have hok : parse e.text = .ok e.reread := by
    rw [hparse]
    refine hwithin.1 (Nat.le_of_not_lt fun hdeep => ?_)
    obtain ⟨pos,herror⟩ := hwithin.2 hdeep
    exact shallow pos maxNesting (hparse.trans herror)
  refine ⟨hok,?_⟩
  rw [hok,Except.ok.injEq,Expr.reread_eq_self_iff]

/-- The text `(x + (-2 ^ -0.5))` is read as the sum of `x` and `-1` times the power of `2`. -/
theorem parse_text_signs :
    let e : Expr := .binary .add .var (.binary .pow (.const (-2)) (.const (-0.5)))
    e.text = "(x + (-2 ^ -0.5))" ∧
      parse e.text = .ok (.binary .add .var
        (.binary .mul (.const (-1)) (.binary .pow (.const 2) (.const (-0.5))))) ∧
      parse e.text ≠ .ok e := by
  intro e
  have hconstants : ∀ v, .const v ∈ e.subtrees → v = -2 ∨ v = -0.5 := by
    intro v hv
    simpa [e,Expr.subtrees] using hv
  have hfinite : (-2 : Float).isFinite = true ∧ (-0.5 : Float).isFinite = true := by
    decide +kernel
  obtain ⟨e',he'⟩ := exists_eq_ok (m := parse e.text) (by decide +kernel)
  obtain ⟨hreread,hself⟩ := parse_text e
    (fun v hv => by rcases hconstants v hv with rfl | rfl; exacts [hfinite.1,hfinite.2])
    (by simp [he']) (by simp [he'])
  refine ⟨by decide +kernel,hreread.trans (by decide +kernel),fun h => ?_⟩
  have hsign := hself.mp h (-2) (.const (-0.5)) (by simp [e,Expr.subtrees])
  exact absurd hsign (by decide +kernel)

end Formula
end NumericWorkbench
