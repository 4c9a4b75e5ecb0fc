import NumericWorkbench.Proofs.Formula.Scanning
/-! How the tokens of a formula are spelled, and what is reported where no token can be read. -/
namespace NumericWorkbench
namespace Formula
open Number Text

/-- The first text spells the token in front of the second one. -/
inductive Spells : Token → List Char → List Char → Prop
  | number {x : Float} {cs rest : List Char} : IsLongestLiteral cs (cs ++ rest) →
      Number.read cs = some x → Spells (.number x) cs rest
  | function {f : Elementary} {name : String} {rest : List Char} : name ∈ f.spellings →
      rest.head? = some '(' → Spells (.function f) name.toList rest
  | pi {rest : List Char} : Spells (.constant .pi) ['p','i'] rest
  | e {rest : List Char} : (∀ c ∈ rest.head?, isWordChar c = false) →
      Spells (.constant .e) ['e'] rest
  | var {rest : List Char} : Spells .var ['x'] rest
  | plus {rest : List Char} : Spells .plus ['+'] rest
  | minus {rest : List Char} : Spells .minus ['-'] rest
  | star {rest : List Char} : rest.head? ≠ some '*' → Spells .star ['*'] rest
  | slash {rest : List Char} : Spells .slash ['/'] rest
  | caret {rest : List Char} : Spells .caret ['^'] rest
  | stars {rest : List Char} : Spells .caret ['*','*'] rest
  | leftParen {rest : List Char} : Spells .leftParen ['('] rest
  | rightParen {rest : List Char} : Spells .rightParen [')'] rest

/-- A letter, a digit or an underscore: what the report of an unknown name consists of. -/
def isNameChar (c : Char) : Bool := isWordChar c || isAlphabetic c

/-- What an error says about the text at its position. -/
inductive Reports (pos : Nat) : Error → List Char → Prop
  | char {c : Char} {rest : List Char} : isAlphabetic c = false → c ≠ '_' →
      Reports pos (.unexpectedChar c pos) (c::rest)
  | identifier {word rest : List Char} : word ≠ [] → (∀ c ∈ word, isNameChar c = true) →
      (∀ c ∈ rest.head?, isNameChar c = false) →
      Reports pos (.unknownIdentifier (String.ofList word) pos) (word ++ rest)
  | literal {es rest : List Char} : IsExponent es →
      IsLongestLiteral ('.'::es) ('.'::es ++ rest) →
      Reports pos (.invalidNumber (String.ofList ('.'::es)) pos) ('.'::es ++ rest)

variable {c : Char} {cs text rest : List Char} {f : Elementary} {n pos : Nat} {t : Token}
  {e : Error}

section Words

theorem functionAt_eq_some (h : functionAt cs = some (f,n)) :
    ∃ name ∈ f.spellings, name.length = n ∧ name.toList ++ ['('] <+: cs := by
  obtain ⟨g,-,hg⟩ := List.exists_of_findSome?_eq_some h
  obtain ⟨name,hname,hif⟩ := List.exists_of_findSome?_eq_some hg
  split_ifs at hif with hbegins
  cases hif
  exact ⟨name,hname,rfl,List.isPrefixOf_iff_prefix.mp hbegins⟩

theorem spells_of_wordAt (h : wordAt pos c cs = .ok (t,n)) :
    ∃ text rest, c::cs = text ++ rest ∧ text.length = n ∧ Spells t text rest := by
  unfold wordAt at h
  split at h
  · rename_i f length hfunction
    cases h
    obtain ⟨name,hname,hlength,rest,hrest⟩ := functionAt_eq_some hfunction
    have hsplit : c::cs = name.toList ++ '('::rest := by
      rw [← hrest,List.append_assoc]
      rfl
    exact ⟨name.toList,'('::rest,hsplit,hlength,.function hname rfl⟩
  · split_ifs at h with hpi he hx <;> cases h
    · obtain ⟨rfl,hnext⟩ := hpi
      obtain ⟨rest,rfl⟩ := List.head?_eq_some_iff.mp hnext
      exact ⟨['p','i'],rest,rfl,rfl,.pi⟩
    · obtain ⟨rfl,hnext⟩ := he
      have hend : cs.head?.any isWordChar = false := by simpa using hnext
      exact ⟨['e'],cs,rfl,rfl,.e ((Option.any_eq_false _ _).mp hend)⟩
    · subst hx
      exact ⟨['x'],cs,rfl,rfl,.var⟩

theorem reports_name (hc : isNameChar c = true) (cs : List Char) :
    Reports pos (.unknownIdentifier (String.ofList ((c::cs).takeWhile isNameChar)) pos)
      (c::cs) := by
  have hne : (c::cs).takeWhile isNameChar ≠ [] := by simp [hc]
  have hend : ∀ d ∈ ((c::cs).dropWhile isNameChar).head?, isNameChar d = false := by
    intro d hd
    rw [← List.find?_not_eq_head?_dropWhile] at hd
    simpa using List.find?_some hd
  have hreport := @Reports.identifier pos _ _ hne (fun _ => List.mem_takeWhile_imp) hend
  rwa [List.takeWhile_append_dropWhile] at hreport

theorem reports_of_wordAt (hc : (isAlphabetic c || c = '_') = true)
    (h : wordAt pos c cs = .error e) : Reports pos e (c::cs) := by
  have hname : isNameChar c = true := by
    simp only [isNameChar,isWordChar,Bool.or_eq_true,decide_eq_true_eq,beq_iff_eq] at hc ⊢
    tauto
  unfold wordAt at h
  split at h
  · cases h
  · split_ifs at h
    cases h
    exact reports_name hname cs

theorem spelling_second {name : String} (h : name ∈ f.spellings) :
    ∃ c d cs, name.toList = c::d::cs ∧ isWordChar d = true := by
  rcases spelling_cases h with rfl | ⟨rfl,rfl⟩
  · cases f <;> exact ⟨_,_,_,rfl,rfl⟩
  · exact ⟨_,_,_,rfl,rfl⟩

theorem functionAt_e (h : ∀ c ∈ rest.head?, isWordChar c = false) :
    functionAt ('e'::rest) = none := by
  by_contra hsome
  obtain ⟨⟨f,n⟩,hf⟩ := Option.ne_none_iff_exists'.mp hsome
  obtain ⟨name,hname,-,back,hback⟩ := functionAt_eq_some hf
  obtain ⟨c,d,cs,hcs,hd⟩ := spelling_second hname
  rw [hcs] at hback
  have hrest : d::(cs ++ ['('] ++ back) = rest := (List.cons.inj hback).2
  have hfalse := h d (by simp [← hrest])
  simp [hd] at hfalse

end Words

section Numbers

theorem literalAt_cons (hc : c.isDigit = true ∨ c = '.') (cs : List Char) :
    ∃ ds, literalAt (c::cs) = c::ds := by
  rcases hc with hc | rfl
  · have hdigits : Digits [c] := by simpa [Digits] using hc
    exact ⟨literalAt cs,literalAt_digits hdigits⟩
  · exact ⟨_,literalAt_point cs⟩

theorem spells_number {x : Float} (hc : c.isDigit = true ∨ c = '.')
    (hx : readMagnitude (literalAt (c::cs)) = some x) :
    ∃ rest, c::cs = literalAt (c::cs) ++ rest ∧ Spells (.number x) (literalAt (c::cs)) rest := by
  obtain ⟨rest,hrest⟩ := literalAt_isPrefix (c::cs)
  obtain ⟨ds,hds⟩ := literalAt_cons hc cs
  have hlongest : IsLongestLiteral (literalAt (c::cs)) (literalAt (c::cs) ++ rest) := by
    rw [hrest,isLongestLiteral_iff]
  have hread : Number.read (literalAt (c::cs)) = some x := by
    rw [hds] at hx ⊢
    rw [read_eq_readMagnitude hc,hx]
  exact ⟨rest,hrest.symm,.number hlongest hread⟩

theorem reports_literal (hc : c.isDigit = true ∨ c = '.')
    (hnone : readMagnitude (literalAt (c::cs)) = none) :
    Reports pos (.invalidNumber (String.ofList (literalAt (c::cs))) pos) (c::cs) := by
  have hlongest : IsLongestLiteral (literalAt (c::cs)) (c::cs) := isLongestLiteral_iff.mpr rfl
  obtain ⟨ds,hds⟩ := literalAt_cons hc cs
  rcases hlongest.isLiteral.no_mantissa hnone with hexponent | ⟨es,hes,heq⟩
  · rw [hds] at hexponent
    cases hexponent <;> exact absurd hc (by decide)
  · obtain ⟨rest,hrest⟩ := heq ▸ hlongest.begins
    rw [heq,← hrest] at hlongest ⊢
    exact .literal hes hlongest

end Numbers

theorem spells_of_tokenAt (h : tokenAt pos c cs = .ok (t,n)) :
    ∃ text rest, c::cs = text ++ rest ∧ text.length = n ∧ Spells t text rest := by
  unfold tokenAt at h
  split at h
  · rename_i hc
    simp only at h
    split at h
    · rename_i x hx
      cases h
      obtain ⟨rest,hrest,hspells⟩ := spells_number (by simpa using hc) hx
      exact ⟨literalAt (c::cs),rest,hrest,rfl,hspells⟩
    · cases h
  · split at h
    case h_3 =>
      split_ifs at h with hstar <;> cases h
      · obtain ⟨rest,rfl⟩ := List.head?_eq_some_iff.mp hstar
        exact ⟨['*','*'],rest,rfl,rfl,.stars⟩
      · exact ⟨['*'],cs,rfl,rfl,.star hstar⟩
    case h_8 =>
      split_ifs at h
      exact spells_of_wordAt h
    all_goals cases h
    · exact ⟨['+'],cs,rfl,rfl,.plus⟩
    · exact ⟨['-'],cs,rfl,rfl,.minus⟩
    · exact ⟨['/'],cs,rfl,rfl,.slash⟩
    · exact ⟨['^'],cs,rfl,rfl,.caret⟩
    · exact ⟨['('],cs,rfl,rfl,.leftParen⟩
    · exact ⟨[')'],cs,rfl,rfl,.rightParen⟩

theorem reports_of_tokenAt (h : tokenAt pos c cs = .error e) : Reports pos e (c::cs) := by
  unfold tokenAt at h
  split at h
  · rename_i hc
    simp only at h
    split at h
    · cases h
    · rename_i hnone
      cases h
      exact reports_literal (by simpa using hc) hnone
  · split at h
    case h_3 => split_ifs at h
    case h_8 =>
      split_ifs at h with hc
      · exact reports_of_wordAt hc h
      · cases h
        have hname : isAlphabetic c = false ∧ c ≠ '_' := by simpa using hc
        exact .char hname.1 hname.2
    all_goals cases h

theorem Spells.tokenAt_eq (h : Spells t text rest) :
    ∃ c cs, text = c::cs ∧ ∀ pos, tokenAt pos c (cs ++ rest) = .ok (t,cs.length+1) := by
  cases h with
  | @number x _ _ hlongest hx =>
    obtain ⟨c,cs,rfl,hc⟩ := hlongest.isLiteral.begins_of_read hx
    have hliteral : c::cs = literalAt (c::cs ++ rest) := isLongestLiteral_iff.mp hlongest
    rw [read_eq_readMagnitude hc] at hx
    refine ⟨c,cs,rfl,fun pos => ?_⟩
    have hbegins : (c.isDigit || c = '.') = true := by simpa using hc
    unfold tokenAt
    rw [if_pos hbegins,← List.cons_append,← hliteral]
    simp [hx]
  | function hname hnext =>
    obtain ⟨back,rfl⟩ := List.head?_eq_some_iff.mp hnext
    obtain ⟨c,cs,hcs,htoken⟩ := tokenAt_function hname
    exact ⟨c,cs,hcs,fun pos => htoken pos back⟩
  | e hnext =>
    refine ⟨'e',[],rfl,fun pos => ?_⟩
    have hword : tokenAt pos 'e' rest = wordAt pos 'e' rest := rfl
    have hend : rest.head?.any isWordChar = false := (Option.any_eq_false _ _).mpr hnext
    rw [List.nil_append,hword,wordAt,functionAt_e hnext]
    simp [hend]
  | star hnext =>
    refine ⟨'*',[],rfl,fun pos => ?_⟩
    have hstar : tokenAt pos '*' rest =
      if rest.head? = some '*' then .ok (.caret,2) else .ok (.star,1) := rfl
    rw [List.nil_append,hstar,if_neg hnext]
    rfl
  | pi | var | plus | minus | slash | caret | stars | leftParen | rightParen =>
    exact ⟨_,_,rfl,fun _ => rfl⟩

theorem spells_iff_tokenAt :
    Spells t (c::cs) rest ↔ ∀ pos, tokenAt pos c (cs ++ rest) = .ok (t,cs.length+1) := by
  constructor
  · intro h
    obtain ⟨d,ds,heq,htoken⟩ := h.tokenAt_eq
    obtain ⟨rfl,rfl⟩ := List.cons.inj heq
    exact htoken
  · intro h
    obtain ⟨text,rest',hsplit,hlength,hspells⟩ := spells_of_tokenAt (h 0)
    rw [← List.cons_append] at hsplit
    obtain ⟨rfl,rfl⟩ := List.append_inj hsplit hlength.symm
    exact hspells

end Formula
end NumericWorkbench
