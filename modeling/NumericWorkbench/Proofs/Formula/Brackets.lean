import NumericWorkbench.Proofs.Formula.Neighbours
/-! Where the report of a missing bracket points to. It is the beginning of the bracket, with the
name of its function, and the bracket has no end, unless numbers side by side keep the parser from
reaching it. -/
namespace NumericWorkbench
namespace Formula

inductive Side where
  | opening | closing
deriving DecidableEq

def sidesOfChar : Char → List Side
  | '(' => [.opening]
  | ')' => [.closing]
  | _ => []

def Token.sides : Token → List Side
  | .leftParen => [.opening]
  | .rightParen => [.closing]
  | _ => []

/-- Whether a bracket is closed by what follows it, where `n` others are still open inside of it. -/
def closes : Nat → List Side → Bool
  | _,[] => false
  | n,.opening::sides => closes (n+1) sides
  | 0,.closing::_ => true
  | n+1,.closing::sides => closes n sides

/-- At the offset `pos` a bracket is opened that is not closed. -/
structure IsUnmatched (cs : List Char) (pos : Nat) : Prop where
  opened : cs[pos]? = some '('
  unclosed : closes 0 ((cs.drop (pos+1)).flatMap sidesOfChar) = false

/-- The bracket that is opened at `pos` begins at `start`, with the name of its function if it has
one. -/
def BeginsAt (cs : List Char) (start pos : Nat) : Prop :=
  pos = start ∨ ∃ f : Elementary, ∃ name ∈ f.spellings,
    name.toList <+: cs.drop start ∧ pos = start+name.length

/-- In the bracket that is opened at `pos` two numbers stand side by side, before it is closed. -/
def NumbersMeetInside (cs : List Char) (pos : Nat) : Prop :=
  ∃ before inside a p b q after,
    scan cs = .ok (before ++ ⟨.leftParen,pos⟩::(inside ++ ⟨.number a,p⟩::⟨.number b,q⟩::after)) ∧
    closes 0 ((inside.map Lexeme.token).flatMap Token.sides) = false

section Sides
variable {cs text rest : List Char} {t : Token} {ts : List Token}

theorem sidesOfChar_literal {c : Char} (h : isLiteralChar c = true) : sidesOfChar c = [] := by
  unfold sidesOfChar
  split
  · cases h
  · cases h
  · rfl

theorem Spells.sides (h : Spells t text rest) : text.flatMap sidesOfChar = t.sides := by
  cases h with
  | number hlongest =>
    exact List.flatMap_eq_nil_iff.mpr fun c hc =>
      sidesOfChar_literal (hlongest.isLiteral.all_chars c hc)
  | @function f name _ hname =>
    rcases spelling_cases hname with rfl | ⟨rfl,rfl⟩
    · cases f <;> rfl
    · rfl
  | _ => rfl

theorem Spelling.sides (h : Spelling cs ts) : cs.flatMap sidesOfChar = ts.flatMap Token.sides := by
  induction h with
  | nil => rfl
  | cons htoken _ ih =>
    rw [← List.cons_append,List.flatMap_append,(spells_iff_tokenAt.mpr htoken).sides,ih]
    rfl

theorem sides_withProducts (ts : List Token) :
    (withProducts ts).flatMap Token.sides = ts.flatMap Token.sides := by
  fun_induction withProducts ts with
  | case1 | case2 => rfl
  | case3 a b ts hab ih | case4 a b ts hab ih => simpa [Token.sides] using ih

/-- An expression closes all brackets that it opens, and no others. -/
theorem Derives.closes_append {s : Symbol} {e : Expr} {d : Nat} (h : Derives s ts e d) (n : Nat)
    (sides : List Side) : closes n (ts.flatMap Token.sides ++ sides) = closes n sides := by
  induction h generalizing n sides with
  | term _ ih | unary _ ih | power _ ih | primary _ ih => exact ih n sides
  | add _ _ ihl ihr | sub _ _ ihl ihr | mul _ _ ihl ihr | div _ _ ihl ihr | pow _ _ ihl ihr =>
    simp [Token.sides,ihl,ihr]
  | plus _ ih | minus _ _ ih | minusConst _ ih => exact ih n sides
  | number | var | constant => rfl
  | function f _ ih | bracket _ ih => simp [Token.sides,closes,ih]

theorem Derives.closes_eq_false {s : Symbol} {e : Expr} {d : Nat} (h : Derives s ts e d) :
    closes 0 (ts.flatMap Token.sides) = false := by
  simpa [closes] using h.closes_append 0 []

end Sides

section Places
variable {cs : List Char} {ls front back content opening rest : List Lexeme} {l : Lexeme}
  {start pos : Nat}

theorem Opens.exists_bracket (hopen : Opens start opening)
    (h : insertProducts ls = front ++ (opening ++ content)) :
    ∃ before pos after, ls = before ++ ⟨.leftParen,pos⟩::after ∧ insertProducts after = content ∧
      (pos = start ∨ ∃ f before', before = before' ++ [⟨.function f,start⟩]) := by
  cases hopen with
  | bracket =>
    obtain ⟨before,after,hls,hback⟩ := exists_of_insertProducts (by simp) h
    rw [insertProducts_cons rfl] at hback
    exact ⟨before,start,after,hls,(List.cons.inj hback).2,.inl rfl⟩
  | function f pos =>
    obtain ⟨before,after,rfl,hback⟩ := exists_of_insertProducts (by simp) h
    obtain ⟨after',rfl,hback'⟩ := insertProducts_eq_cons_cons (by simp) hback
    rw [insertProducts_cons rfl] at hback'
    exact ⟨before ++ [⟨.function f,start⟩],pos,after',by simp,(List.cons.inj hback').2,
      .inr ⟨f,before,rfl⟩⟩

theorem Tiling.opened (h : Tiling cs pos (⟨.leftParen,pos⟩::back)) :
    cs[pos]? = some '(' ∧ Tiling cs (pos+1) back := by
  obtain ⟨-,text,rest,hsplit,hspells,htail⟩ := tiling_cons.mp h
  cases hspells
  refine ⟨?_,htail⟩
  rw [← List.head?_drop,hsplit]
  rfl

theorem Tiling.beginsAt {f : Elementary}
    (h : Tiling cs start (⟨.function f,start⟩::⟨.leftParen,pos⟩::back)) :
    BeginsAt cs start pos := by
  obtain ⟨-,text,rest,hsplit,hspells,htail⟩ := tiling_cons.mp h
  cases hspells with
  | @function _ name _ hname =>
    exact .inr ⟨f,name,hname,⟨rest,hsplit.symm⟩,htail.first _ rfl⟩

theorem Tiling.isUnmatched {s : Symbol} {e : Expr} {d : Nat}
    (h : Tiling cs pos (⟨.leftParen,pos⟩::back))
    (hd : Derives s ((insertProducts back).map Lexeme.token) e d) : IsUnmatched cs pos := by
  obtain ⟨hopened,htail⟩ := h.opened
  refine ⟨hopened,?_⟩
  calc closes 0 ((cs.drop (pos+1)).flatMap sidesOfChar)
    _ = closes 0 ((back.map Lexeme.token).flatMap Token.sides) := by
      rw [(spelling_of_tiling htail).sides]
    _ = closes 0 (((insertProducts back).map Lexeme.token).flatMap Token.sides) := by
      rw [map_token_insertProducts,sides_withProducts]
    _ = false := hd.closes_eq_false

/-- When numbers meet behind an expression, what stands in front of them closes no other bracket. -/
theorem closes_before_numbers {s : Symbol} {e : Expr} {d : Nat} {used : List Lexeme}
    (hused : insertProducts ls = used ++ rest) (hd : Derives s (used.map Lexeme.token) e d)
    (hmeet : NumbersMeet (insertProducts ls) rest) : ∃ inside a p b q after,
      ls = inside ++ ⟨.number a,p⟩::⟨.number b,q⟩::after ∧
      closes 0 ((inside.map Lexeme.token).flatMap Token.sides) = false := by
  obtain ⟨rest',⟨inside,a,p,b,q,after,hls,rfl⟩,hrest⟩ := hmeet.scanned
  -- The products that are written in `used` but not in `inside` have no sides.
  have hsides : (used.map Lexeme.token).flatMap Token.sides =
      (inside.map Lexeme.token).flatMap Token.sides := by
    have hrest' := sides_withProducts ((⟨.number b,q⟩::after : List Lexeme).map Lexeme.token)
    have hall := sides_withProducts (ls.map Lexeme.token)
    rw [← map_token_insertProducts] at hrest' hall
    rw [hused,hls,← hrest,List.map_append,List.map_append,List.flatMap_append,
      List.flatMap_append,hrest'] at hall
    exact List.append_cancel_right hall
  exact ⟨inside,a,p,b,q,after,hls,hsides ▸ hd.closes_eq_false⟩

theorem Unclosed.exists_bracket (htiling : Tiling cs 0 ls)
    (h : Unclosed (insertProducts ls) start rest) :
    ∃ pos, BeginsAt cs start pos ∧ cs[pos]? = some '(' ∧
      (IsUnmatched cs pos ∨ NumbersMeetInside cs pos) := by
  have hscan := scan_eq_ok_iff.mpr htiling
  obtain ⟨⟨front,opening,content,n,e,hsplit,hopen,hread⟩,hmissing⟩ := h
  obtain ⟨before,pos,after,rfl,rfl,hplace⟩ := hopen.exists_bracket hsplit
  obtain ⟨used,d,hused,hd,hends⟩ := expression_stops hread hmissing (List.nil_append _).symm
  have hbracket := htiling.suffix
  refine ⟨pos,?_,hbracket.opened.1,?_⟩
  · rcases hplace with hplace | ⟨f,before,rfl⟩
    · exact .inl hplace
    · rw [List.append_assoc] at htiling
      exact Tiling.beginsAt (Tiling.suffix (l := ⟨.function f,start⟩) htiling)
  · rcases hends with rfl | hmeet
    · rw [List.append_nil] at hused
      rw [← hused] at hd
      exact .inl (hbracket.isUnmatched hd)
    · obtain ⟨inside,a,p,b,q,after,rfl,hinside⟩ := closes_before_numbers hused hd hmeet
      exact .inr ⟨before,inside,a,p,b,q,after,hscan,hinside⟩

end Places

/-- The report of a missing bracket points to the beginning of a bracket. This one has no end, unless
numbers stand side by side in it. -/
theorem missingParen_begins (formula : String) (start : Nat)
    (h : parse formula = .error (.missingParen start)) :
    ∃ pos, BeginsAt (normalize formula.toList) start pos ∧
      (normalize formula.toList)[pos]? = some '(' ∧
      (IsUnmatched (normalize formula.toList) pos ∨
        NumbersMeetInside (normalize formula.toList) pos) := by
  obtain ⟨ls,rest,hscan,hunclosed⟩ := parse_missingParen h
  exact hunclosed.exists_bracket (scan_eq_ok_iff.mp hscan)

theorem missingParen_begins_function : parse "2 sin(x" = .error (.missingParen 1) ∧
    ∃ pos, BeginsAt (normalize "2 sin(x".toList) 1 pos ∧
      (normalize "2 sin(x".toList)[pos]? = some '(' ∧
      (IsUnmatched (normalize "2 sin(x".toList) pos ∨
        NumbersMeetInside (normalize "2 sin(x".toList) pos) := by
  have h : parse "2 sin(x" = .error (.missingParen 1) := by decide +kernel
  exact ⟨h,missingParen_begins "2 sin(x" 1 h⟩

/-- The reported place need not be a bracket, and a bracket there may well have its end. -/
theorem missingParen_misplaced :
    (parse "sin(x" = .error (.missingParen 0) ∧ ¬IsUnmatched (normalize "sin(x".toList) 0) ∧
    parse "(1.2.3)" = .error (.missingParen 0) ∧ ¬IsUnmatched (normalize "(1.2.3)".toList) 0 := by
  have hname : (normalize "sin(x".toList)[0]? = some 's' := by decide +kernel
  have hclosed : closes 0 (((normalize "(1.2.3)".toList).drop 1).flatMap sidesOfChar) = true := by
    decide +kernel
  refine ⟨⟨by decide +kernel,fun h => ?_⟩,by decide +kernel,fun h => ?_⟩
  · cases hname.symm.trans h.opened
  · cases hclosed.symm.trans h.unclosed

end Formula
end NumericWorkbench
