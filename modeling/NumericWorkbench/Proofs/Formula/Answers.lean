import NumericWorkbench.Proofs.Formula.Stopping
/-! What is answered to a formula, from its text to its tree. The text is spelled by tokens, and with
the implied products these have a derivation, or one of the stages refuses it. -/
namespace NumericWorkbench
namespace Formula

variable {formula : String} {cs : List Char} {ls ts : List Lexeme} {e : Expr} {error : Error}

theorem tokenize_eq_ok : tokenize formula = .ok ts ↔
    ∃ ls, scan (normalize formula.toList) = .ok ls ∧ insertProducts ls = ts := by
  unfold tokenize
  cases scan (normalize formula.toList) <;> simp [Except.map]

theorem tokenize_eq_error :
    tokenize formula = .error error ↔ scan (normalize formula.toList) = .error error := by
  unfold tokenize
  cases scan (normalize formula.toList) <;> simp [Except.map]

section Trees

theorem spelling_of_tiling {pos : Nat} (h : Tiling cs pos ls) :
    Spelling (cs.drop pos) (ls.map Lexeme.token) := by
  induction ls generalizing pos with
  | nil =>
    rw [List.drop_eq_nil_of_le (tiling_nil.mp h)]
    exact .nil
  | cons l ls ih =>
    obtain ⟨rfl,text,rest,hsplit,hspells,htail⟩ := tiling_cons.mp h
    have hrest := ih htail
    rw [drop_split hsplit] at hrest
    obtain ⟨c,cs,rfl,htoken⟩ := hspells.tokenAt_eq
    rw [hsplit]
    exact .cons htoken hrest

theorem spelling_of_scan (h : scan cs = .ok ls) : Spelling cs (ls.map Lexeme.token) :=
  spelling_of_tiling (scan_eq_ok_iff.mp h)

theorem length_of_parseTokens (h : parseTokens ts = .ok e) : ts ≠ [] ∧ ts.length ≤ maxTokens := by
  have hne : ts ≠ [] := by
    rintro rfl
    cases h
  refine ⟨hne,?_⟩
  by_contra hlong
  rw [parseTokens,if_neg (by simpa using hne),if_pos (by omega)] at h
  cases h

theorem derives_of_parseTokens (h : parseTokens ts = .ok e) :
    ∃ d, Derives .expression (ts.map Lexeme.token) e d := by
  obtain ⟨hne,hshort⟩ := length_of_parseTokens h
  obtain ⟨d,-,hd⟩ := parseTokens_sound hne hshort h
  exact ⟨d,hd⟩

theorem exists_derivation (h : parse formula = .ok e) :
    ∃ ls d, scan (normalize formula.toList) = .ok ls ∧
      Derives .expression (withProducts (ls.map Lexeme.token)) e d := by
  obtain ⟨ts,htokens,hparse⟩ := bind_eq_ok.mp h
  obtain ⟨ls,hscan,rfl⟩ := tokenize_eq_ok.mp htokens
  obtain ⟨d,hd⟩ := derives_of_parseTokens hparse
  rw [map_token_insertProducts] at hd
  exact ⟨ls,d,hscan,hd⟩

/-- The formula has this tree, unless it is too long or nested too deep. -/
def ReadsAs (formula : String) (e : Expr) : Prop :=
  parse formula = .ok e ∨ (∃ tokens limit, parse formula = .error (.tooLong tokens limit)) ∨
    ∃ pos limit, parse formula = .error (.tooDeep pos limit)

theorem readsAs_of_spelling {tokens : List Token} {d : Nat}
    (h : Spelling (normalize formula.toList) tokens)
    (hd : Derives .expression (withProducts tokens) e d) : ReadsAs formula e := by
  obtain ⟨ls,hls,rfl⟩ := h.exists_lexemes 0
  rw [← map_token_insertProducts] at hd
  have hparse : parse formula = parseTokens (insertProducts ls) := by
    rw [parse,tokenize_eq_ok.mpr ⟨ls,hls,rfl⟩,ok_bind]
  have hne : insertProducts ls ≠ [] := fun hnil => hd.ne_nil (List.map_eq_nil_iff.mpr hnil)
  unfold ReadsAs
  rw [hparse]
  by_cases hlong : maxTokens < (insertProducts ls).length
  · right
    left
    exact ⟨_,_,by rw [parseTokens,if_neg (by simpa using hne),if_pos hlong]⟩
  · have hwithin := hd.parseTokens_within hne (Nat.le_of_not_lt hlong)
    by_cases hdeep : d ≤ maxNesting
    · exact .inl (hwithin.1 hdeep)
    · obtain ⟨pos,herror⟩ := hwithin.2 (Nat.lt_of_not_le hdeep)
      exact .inr (.inr ⟨pos,_,herror⟩)

end Trees

section Refusals

theorem reports_of_scan (h : scan cs = .error error) : ∃ pos text, Reports pos error text := by
  rcases scanFrom_cases (Nat.zero_le cs.length) with ⟨ls,hls,-⟩ | ⟨error',stop,herror,hstops⟩
  · cases hls.symm.trans h
  · obtain rfl : error' = error := Except.error.inj (herror.symm.trans h)
    exact ⟨stop,_,hstops.reports⟩

theorem parseTokens_eq_error (h : parseTokens ts = .error error) :
    error = .empty ∨ error = .tooLong ts.length maxTokens ∨ Refuses ts error ∨
      ∃ e rest, expression (unary maxNesting) ts = .ok (e,rest) ∧
        wholeOnly (e,rest) = .error error := by
  by_cases hnil : ts = []
  · subst hnil
    cases h
    exact .inl rfl
  by_cases hlong : maxTokens < ts.length
  · rw [parseTokens,if_neg (by simpa using hnil),if_pos hlong] at h
    cases h
    exact .inr (.inl rfl)
  rw [parseTokens_eq hnil (Nat.le_of_not_lt hlong)] at h
  rcases bind_eq_error.mp h with hinner | ⟨⟨e,rest⟩,hinner,hend⟩
  · exact .inr (.inr (.inl (expression_explains (unary_explains _) _ _ hinner)))
  · exact .inr (.inr (.inr ⟨e,rest,hinner,hend⟩))

theorem parse_eq_error (h : parse formula = .error error) :
    (∃ pos text, Reports pos error text) ∨ ∃ ls, scan (normalize formula.toList) = .ok ls ∧
      parseTokens (insertProducts ls) = .error error := by
  rcases bind_eq_error.mp h with htokens | ⟨ts,htokens,hparse⟩
  · exact .inl (reports_of_scan (tokenize_eq_error.mp htokens))
  · obtain ⟨ls,hscan,rfl⟩ := tokenize_eq_ok.mp htokens
    exact .inr ⟨ls,hscan,hparse⟩

theorem parse_missingParen {start : Nat} (h : parse formula = .error (.missingParen start)) :
    ∃ ls rest, scan (normalize formula.toList) = .ok ls ∧
      Unclosed (insertProducts ls) start rest := by
  rcases parse_eq_error h with ⟨_,_,hreport⟩ | ⟨ls,hscan,hparse⟩
  · cases hreport
  · rcases parseTokens_eq_error hparse with herror | herror | hrefuses | ⟨e,rest,-,hend⟩
    · cases herror
    · cases herror
    · cases hrefuses with
      | missingParen hunclosed => exact ⟨ls,_,hscan,hunclosed⟩
    · rcases rest with _ | ⟨⟨t,pos⟩,rest⟩
      · cases hend
      · cases t <;> cases hend

theorem parse_trailingInput {pos : Nat} (h : parse formula = .error (.trailingInput pos)) :
    ∃ ls e t rest, scan (normalize formula.toList) = .ok ls ∧
      expression (unary maxNesting) (insertProducts ls) = .ok (e,⟨t,pos⟩::rest) ∧
      t ≠ .rightParen := by
  rcases parse_eq_error h with ⟨_,_,hreport⟩ | ⟨ls,hscan,hparse⟩
  · cases hreport
  · rcases parseTokens_eq_error hparse with herror | herror | hrefuses | ⟨e,rest,hread,hend⟩
    · cases herror
    · cases herror
    · cases hrefuses
    · rcases rest with _ | ⟨⟨t,pos⟩,rest⟩
      · cases hend
      · refine ⟨ls,e,t,rest,hscan,?_,?_⟩
        · cases t <;> cases hend <;> exact hread
        · rintro rfl
          cases hend

end Refusals
end Formula
end NumericWorkbench
