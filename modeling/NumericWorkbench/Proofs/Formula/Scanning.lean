import NumericWorkbench.Proofs.Except
import NumericWorkbench.Proofs.Formula.Literals
import Mathlib.Data.List.Chain
/-! The scanner goes through a text token by token. What a token needs to know of the text behind it
is only where it ends. -/
namespace NumericWorkbench
namespace Formula
open Number Text

/-- The text is read as these tokens, one behind the other. -/
inductive Spelling : List Char → List Token → Prop
  | nil : Spelling [] []
  | cons {c : Char} {cs rest : List Char} {t : Token} {ts : List Token} :
      (∀ pos, tokenAt pos c (cs ++ rest) = .ok (t,cs.length+1)) → Spelling rest ts →
      Spelling (c::(cs ++ rest)) (t::ts)

theorem scanFrom_skip (pos : Nat) (cs rest : List Char) :
    scanFrom pos cs.length (cs ++ rest) = scanFrom (pos+cs.length) 0 rest := by
  induction cs generalizing pos with
  | nil => rfl
  | cons c cs ih =>
    rw [List.length_cons,List.cons_append,scanFrom,ih,Nat.add_right_comm,Nat.add_assoc]

theorem scanFrom_token {pos : Nat} {c : Char} {cs rest : List Char} {t : Token}
    (ht : tokenAt pos c (cs ++ rest) = .ok (t,cs.length+1)) :
    scanFrom pos 0 (c::(cs ++ rest)) = (scanFrom (pos+(cs.length+1)) 0 rest).map (⟨t,pos⟩::·) := by
  have hpos : pos+1+cs.length = pos+(cs.length+1) := by omega
  rw [scanFrom,ht,ok_bind]
  simp only [Nat.add_sub_cancel,scanFrom_skip,hpos]
  rfl

theorem Spelling.exists_lexemes {cs : List Char} {ts : List Token} (h : Spelling cs ts)
    (pos : Nat) : ∃ ls, scanFrom pos 0 cs = .ok ls ∧ ls.map Lexeme.token = ts := by
  induction h generalizing pos with
  | nil => exact ⟨[],rfl,rfl⟩
  | @cons c cs rest t ts ht _ ih =>
    obtain ⟨ls,hls,rfl⟩ := ih (pos+(cs.length+1))
    refine ⟨⟨t,pos⟩::ls,?_,rfl⟩
    rw [scanFrom_token (ht pos),hls]
    rfl

theorem Spelling.single {c : Char} {rest : List Char} {t : Token} {ts : List Token}
    (ht : ∀ pos, tokenAt pos c rest = .ok (t,1)) (h : Spelling rest ts) :
    Spelling (c::rest) (t::ts) :=
  @Spelling.cons c [] rest t ts ht h

/-- The text does not go on with a number. -/
def EndsNumber (rest : List Char) : Prop :=
  ∀ c ∈ rest.head?, c.isDigit = false ∧ c ≠ '.' ∧ c ≠ 'e'

section Literals
variable {cs rest : List Char}

theorem exponentAt_eq_nil (h : EndsNumber rest) : exponentAt rest = [] := by
  cases rest with
  | nil => rfl
  | cons c rest =>
    have hc := (h c rfl).2.2
    unfold exponentAt
    split <;> simp_all

theorem literalAt_eq_nil (h : EndsNumber rest) : literalAt rest = [] := by
  cases rest with
  | nil => rfl
  | cons c back =>
    obtain ⟨hdigit,hpoint,-⟩ := h c rfl
    simp [literalAt,hdigit,hpoint,exponentAt_eq_nil h]

theorem literalAt_append (hcs : IsDecimal cs) (hrest : EndsNumber rest) :
    literalAt (cs ++ rest) = cs := by
  have hend : ∀ c ∈ rest.head?, c.isDigit = false := fun c hc => (hrest c hc).1
  cases hcs with
  | whole _ hdigits => rw [literalAt_digits hdigits,literalAt_eq_nil hrest,List.append_nil]
  | point _ hdigits hfraction =>
    rw [List.append_assoc,literalAt_digits hdigits,List.cons_append,literalAt_point,
      takeWhile_exact hfraction hend,dropWhile_exact hfraction hend,exponentAt_eq_nil hrest,
      List.append_nil]

theorem Spelling.number {x : Float} {ts : List Token} (hcs : IsDecimal cs)
    (hx : readMagnitude cs = some x) (hrest : EndsNumber rest) (h : Spelling rest ts) :
    Spelling (cs ++ rest) (.number x::ts) := by
  have hliteral := literalAt_append hcs hrest
  obtain ⟨c,ds,rfl,hc⟩ := hcs.exists_digit
  refine .cons (fun pos => ?_) h
  unfold tokenAt
  rw [if_pos (by simp [hc]),← List.cons_append,hliteral]
  simp [hx]

end Literals

section Words
variable {rest : List Char} {ts : List Token}

theorem spelling_cases {f : Elementary} {name : String} (h : name ∈ f.spellings) :
    name = f.name ∨ f = .ln ∧ name = "log" := by
  cases f with
  | ln => simpa [Elementary.spellings,Elementary.name] using h
  | _ => exact .inl (List.mem_singleton.mp h)

theorem tokenAt_function {f : Elementary} {name : String} (h : name ∈ f.spellings) :
    ∃ c cs, name.toList = c::cs ∧
      ∀ pos rest, tokenAt pos c (cs ++ '('::rest) = .ok (.function f,cs.length+1) := by
  rcases spelling_cases h with rfl | ⟨rfl,rfl⟩
  · cases f <;> exact ⟨_,_,rfl,fun _ _ => rfl⟩
  · exact ⟨_,_,rfl,fun _ _ => rfl⟩

theorem Spelling.function {f : Elementary} {name : String} (hname : name ∈ f.spellings)
    (h : Spelling ('('::rest) ts) : Spelling (name.toList ++ '('::rest) (.function f::ts) := by
  obtain ⟨c,cs,hcs,htoken⟩ := tokenAt_function hname
  rw [hcs]
  exact .cons (fun pos => htoken pos rest) h

theorem Spelling.var (h : Spelling rest ts) : Spelling ('x'::rest) (.var::ts) :=
  .single (fun _ => rfl) h

end Words

section Normal
variable {cs : List Char}

theorem normalize_append (cs ds : List Char) :
    normalize (cs ++ ds) = normalize cs ++ normalize ds := by
  simp [normalize]

theorem normalize_cons {c : Char} (h : normalize [c] = [c]) (cs : List Char) :
    normalize (c::cs) = c::normalize cs := by
  have happend := normalize_append [c] cs
  rwa [h] at happend

theorem normalize_blank {c : Char} (h : isBlank c = true) (cs : List Char) :
    normalize (c::cs) = normalize cs := by
  simp [normalize,h]

theorem normalize_eq_self (h : ∀ c ∈ cs, normalize [c] = [c]) : normalize cs = cs := by
  induction cs with
  | nil => rfl
  | cons c cs ih => rw [normalize_cons (h c (by simp)),ih fun d hd => h d (by simp [hd])]

theorem normalize_of_isDigit {c : Char} (h : c.isDigit = true) : normalize [c] = [c] := by
  have hlower := toLower_of_isDigit h
  rw [Char.isDigit_iff_toNat] at h
  have hbounds : 48 ≤ c.toNat ∧ c.toNat ≤ 57 := h
  have hblank : isBlank c = false := by
    simp only [isBlank,Bool.or_eq_false_iff,Bool.and_eq_false_iff,beq_eq_false_iff_ne,
      decide_eq_false_iff_not]
    omega
  have hlowercase : lowercase c = [c] := by
    rw [lowercase,if_pos (by omega),hlower]
  simp [normalize,hblank,hlowercase]

theorem normalize_decimal (h : IsDecimal cs) : normalize cs = cs := by
  refine normalize_eq_self fun c hc => ?_
  cases h with
  | whole _ hdigits => exact normalize_of_isDigit (hdigits c hc)
  | point _ hdigits hfraction =>
    rcases List.mem_append.mp hc with hc | hc
    · exact normalize_of_isDigit (hdigits c hc)
    · rcases List.mem_cons.mp hc with rfl | hc
      · rfl
      · exact normalize_of_isDigit (hfraction c hc)

theorem normalize_spelling {function : Elementary} {name : String}
    (h : name ∈ function.spellings) :
    normalize name.toList = name.toList := by
  rcases spelling_cases h with rfl | ⟨rfl,rfl⟩
  · cases function <;> rfl
  · rfl

end Normal

/-- No two tokens side by side mean a product. -/
def Explicit (ts : List Token) : Prop := ts.IsChain fun a b => a.juxtaposed b = false

theorem Explicit.cons {t : Token} {ts : List Token} (ht : t.endsOperand = false)
    (h : Explicit ts) : Explicit (t::ts) := by
  refine List.isChain_cons.mpr ⟨fun u _ => ?_,h⟩
  simp [Token.juxtaposed,ht]

theorem insertProducts_explicit {ls : List Lexeme} (h : Explicit (ls.map Lexeme.token)) :
    insertProducts ls = ls := by
  fun_induction insertProducts ls with
  | case1 a b rest hab ih =>
    simp [Explicit,hab] at h
  | case2 a b rest hab ih =>
    rw [ih (List.isChain_cons_cons.mp h).2]
  | case3 => rfl

theorem tokenize_of_spelling {text : String} {ts : List Token}
    (h : Spelling (normalize text.toList) ts) (hts : Explicit ts) :
    ∃ ls, tokenize text = .ok ls ∧ ls.map Lexeme.token = ts := by
  obtain ⟨ls,hls,rfl⟩ := h.exists_lexemes 0
  refine ⟨ls,?_,rfl⟩
  rw [tokenize,scan,hls,Except.map,insertProducts_explicit hts]

end Formula
end NumericWorkbench
