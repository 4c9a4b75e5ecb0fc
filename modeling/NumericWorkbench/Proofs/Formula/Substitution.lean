import NumericWorkbench.Proofs.Formula.Answers
import NumericWorkbench.Proofs.Formula.Printing
/-! Formulas put together as texts. A bracket shuts a formula off from what stands behind it: its
tokens, its implied products and its tree are the same as alone. -/
namespace NumericWorkbench
namespace Formula
open Number

section Texts
variable {cs text rest back : List Char} {t : Token} {ts us : List Token}

theorem prefix_of_prefix_append (back : List Char) (h : cs <+: text ++ back)
    (hback : ∀ c ∈ back.head?, c ∉ cs) : cs <+: text := by
  rcases List.prefix_or_prefix_of_prefix h (List.prefix_append text back) with hle | ⟨tail,rfl⟩
  · exact hle
  · rcases tail with _ | ⟨c,tail⟩
    · simp
    · obtain ⟨rest,rfl⟩ := (List.prefix_append_right_inj text).mp h
      exact absurd (by simp) (hback c rfl)

theorem Spells.extend (h : Spells t text rest) (hback : back.head? = some ')') :
    Spells t text (rest ++ back) := by
  have hhead (c : Char) (hc : (rest ++ back).head? = some c) : rest.head? = some c ∨ c = ')' := by
    rcases rest with _ | ⟨d,rest⟩
    · exact .inr (Option.some.inj (hc.symm.trans hback))
    · exact .inl hc
  cases h with
  | number hlongest hx =>
    refine .number ⟨hlongest.isLiteral,List.prefix_append _ _,fun l hl hbegins => ?_⟩ hx
    refine hlongest.longest l hl (prefix_of_prefix_append back ?_ fun c hc => ?_)
    · simpa using hbegins
    · obtain rfl : ')' = c := Option.some.inj (hback.symm.trans hc)
      exact fun hmem => absurd (hl.all_chars _ hmem) (by decide)
  | function hname hnext => exact .function hname (by simp [hnext])
  | e hnext =>
    refine .e fun c hc => ?_
    rcases hhead c hc with hc | rfl
    · exact hnext c hc
    · rfl
  | star hnext =>
    refine .star fun hc => ?_
    rcases hhead _ hc with hc | hc
    · exact hnext hc
    · cases hc
  | pi => exact .pi
  | var => exact .var
  | plus => exact .plus
  | minus => exact .minus
  | slash => exact .slash
  | caret => exact .caret
  | stars => exact .stars
  | leftParen => exact .leftParen
  | rightParen => exact .rightParen

theorem Spelling.append (h : Spelling cs ts) (hback : Spelling back us)
    (hclose : back.head? = some ')') : Spelling (cs ++ back) (ts ++ us) := by
  induction h with
  | nil => exact hback
  | @cons c cs rest t ts htoken _ ih =>
    have hspells := (spells_iff_tokenAt.mpr htoken).extend hclose
    rw [List.cons_append,List.append_assoc]
    exact .cons (spells_iff_tokenAt.mp hspells) ih

theorem Spelling.bracketed (h : Spelling cs ts) (hback : Spelling back us) :
    Spelling ('('::(cs ++ ')'::back)) (.leftParen::(ts ++ .rightParen::us)) :=
  .single (fun _ => rfl) (h.append (.single (fun _ => rfl) hback) rfl)

end Texts

/-- How an operation may be written. -/
def Operation.signs : Operation → List String
  | .add => ["+"]
  | .sub => ["-"]
  | .mul => ["*"]
  | .div => ["/"]
  | .pow => ["^","**"]

/-- A text between a closing and an opening bracket that stands for the operation. -/
structure BetweenBrackets (op : Operation) (sign : List Char) (tokens : List Token) : Prop where
  normal : normalize sign = sign
  spelling : ∀ rest us, Spelling ('('::rest) us → Spelling (sign ++ '('::rest) (tokens ++ us)
  products : ∀ us, withProducts (.rightParen::(tokens ++ .leftParen::us)) =
    .rightParen::op.token::withProducts (.leftParen::us)

namespace BetweenBrackets

theorem ofSign {op : Operation} {sign : String} (h : sign ∈ op.signs) :
    BetweenBrackets op sign.toList [op.token] := by
  cases op with
  | pow =>
    rcases List.mem_pair.mp h with rfl | rfl
    · exact ⟨rfl,fun _ _ => .single fun _ => rfl,fun _ => rfl⟩
    · exact ⟨rfl,fun _ _ => @Spelling.cons '*' ['*'] _ _ _ fun _ => rfl,fun _ => rfl⟩
  | add | sub | mul | div =>
    obtain rfl := List.mem_singleton.mp h
    exact ⟨rfl,fun _ _ => .single fun _ => rfl,fun _ => rfl⟩

theorem nothing : BetweenBrackets .mul [] [] := ⟨rfl,fun _ _ h => h,fun _ => rfl⟩

end BetweenBrackets

section Formulas
variable {f g name : String} {ef eg : Expr}

theorem normalize_bracketed (cs rest : List Char) :
    normalize ('('::(cs ++ ')'::rest)) = '('::(normalize cs ++ ')'::normalize rest) := by
  rw [normalize_cons rfl,normalize_append,normalize_cons rfl]

theorem withProducts_bracketed (ts us : List Token) :
    withProducts (.leftParen::(ts ++ .rightParen::us)) =
      .leftParen::(withProducts ts ++ withProducts (.rightParen::us)) := by
  rw [withProducts_cons rfl,withProducts_before rfl]

theorem readsAs_operation {op : Operation} {sign : String} {tokens : List Token}
    (h : BetweenBrackets op sign.toList tokens) (hf : parse f = .ok ef) (hg : parse g = .ok eg) :
    ReadsAs ("(" ++ f ++ ")" ++ sign ++ "(" ++ g ++ ")") (.binary op ef eg) := by
  obtain ⟨ls,_,hscanf,hdf⟩ := exists_derivation hf
  obtain ⟨ms,_,hscang,hdg⟩ := exists_derivation hg
  have htext : normalize ("(" ++ f ++ ")" ++ sign ++ "(" ++ g ++ ")").toList =
      '('::(normalize f.toList ++ ')'::(sign.toList ++ '('::(normalize g.toList ++ [')']))) := by
    simp [normalize_bracketed,normalize_append,h.normal]
    rfl
  have hspelling := (spelling_of_scan hscanf).bracketed
    (h.spelling _ _ ((spelling_of_scan hscang).bracketed .nil))
  obtain ⟨d,hd⟩ : ∃ d, Derives .expression (withProducts (.leftParen::(ls.map Lexeme.token ++
      .rightParen::(tokens ++ .leftParen::(ms.map Lexeme.token ++ [.rightParen])))))
      (.binary op ef eg) d := by
    rw [withProducts_bracketed,h.products,withProducts_bracketed]
    have hbase : op = .pow → ∃ d, Derives .primary _ ef d := fun _ => ⟨_,hdf.bracket⟩
    obtain ⟨d,hd⟩ := derives_operation hbase hdf.bracket.unary_of_primary
      hdg.bracket.unary_of_primary
    exact ⟨d,by simpa [withProducts] using hd⟩
  rw [← htext] at hspelling
  exact readsAs_of_spelling hspelling hd

theorem readsAs_function {function : Elementary} (h : name ∈ function.spellings)
    (hf : parse f = .ok ef) : ReadsAs (name ++ "(" ++ f ++ ")") (.apply function ef) := by
  obtain ⟨ls,_,hscan,hd⟩ := exists_derivation hf
  have htext : normalize (name ++ "(" ++ f ++ ")").toList =
      name.toList ++ '('::(normalize f.toList ++ [')']) := by
    simp [normalize_bracketed,normalize_append,normalize_spelling h]
    rfl
  have hspelling := Spelling.function h ((spelling_of_scan hscan).bracketed .nil)
  have hproducts : withProducts (.function function::.leftParen::(ls.map Lexeme.token ++
      [.rightParen])) = .function function::.leftParen::(withProducts (ls.map Lexeme.token) ++
      [.rightParen]) := by
    rw [withProducts_cons rfl,withProducts_bracketed]
    rfl
  have happly := (Derives.function function hd).unary_of_primary
  rw [← hproducts] at happly
  rw [← htext] at hspelling
  exact readsAs_of_spelling hspelling (.term (.unary happly))

/-- To put formulas in brackets and an operation between them, or the name of a function in front of
them, is to do the same with their trees, up to the limits. -/
theorem parse_substitution (hf : parse f = .ok ef) (hg : parse g = .ok eg) :
    (∀ op, ∀ sign ∈ Operation.signs op,
      ReadsAs ("(" ++ f ++ ")" ++ sign ++ "(" ++ g ++ ")") (.binary op ef eg)) ∧
    ReadsAs ("(" ++ f ++ ")(" ++ g ++ ")") (.binary .mul ef eg) ∧
    ∀ function, ∀ name ∈ Elementary.spellings function,
      ReadsAs (name ++ "(" ++ f ++ ")") (.apply function ef) := by
  refine ⟨fun op sign hsign => readsAs_operation (.ofSign hsign) hf hg,?_,
    fun function name hname => readsAs_function hname hf⟩
  have hnothing : ReadsAs ("(" ++ f ++ ")" ++ "" ++ "(" ++ g ++ ")") (.binary .mul ef eg) :=
    readsAs_operation .nothing hf hg
  have htext : "(" ++ f ++ ")" ++ "" ++ "(" ++ g ++ ")" = "(" ++ f ++ ")(" ++ g ++ ")" := by
    simp [← String.toList_inj]
  rwa [htext] at hnothing

/-- An `e` and a sign at the ends, where the scanner looks ahead. -/
theorem parse_substitution_ends :
    let left : Expr := .binary .mul (.const 2) (.const Constant.e.value)
    let right : Expr := .binary .mul (.const (-1)) .var
    parse "2E" = .ok left ∧ parse "- x" = .ok right ∧
      ReadsAs "(2E)**(- x)" (.binary .pow left right) ∧
      ReadsAs "(2E)(- x)" (.binary .mul left right) ∧ ReadsAs "log(2E)" (.apply .ln left) := by
  intro left right
  have hleft : parse "2E" = .ok left := by decide +kernel
  have hright : parse "- x" = .ok right := by decide +kernel
  obtain ⟨hoperation,hproduct,hfunction⟩ := parse_substitution hleft hright
  exact ⟨hleft,hright,hoperation .pow "**" (by simp [Operation.signs]),hproduct,
    hfunction .ln "log" (by simp [Elementary.spellings])⟩

end Formulas
end Formula
end NumericWorkbench
