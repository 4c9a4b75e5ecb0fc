import NumericWorkbench.Formula.Scan
import NumericWorkbench.Proofs.Number.Numeral
/-! The number literals of formulas as a grammar. The scanner takes the longest one, and only a
literal without a digit before its exponent has no value. -/
namespace NumericWorkbench
namespace Formula
open Number Text

/-- An exponent has a digit; it may be missing altogether. -/
inductive IsExponent : List Char → Prop
  | none : IsExponent []
  | unsigned {ds : List Char} : ds ≠ [] → Digits ds → IsExponent ('e'::ds)
  | signed {s : Char} {ds : List Char} : s = '+' ∨ s = '-' → ds ≠ [] → Digits ds →
      IsExponent ('e'::s::ds)

/-- Digits, a point with digits, an exponent, where each part may be missing. -/
inductive IsLiteral : List Char → Prop
  | whole {ds es : List Char} : Digits ds → IsExponent es → IsLiteral (ds ++ es)
  | point {ds fs es : List Char} : Digits ds → Digits fs → IsExponent es →
      IsLiteral (ds ++ '.'::(fs ++ es))

/-- The longest literal that a text begins with. -/
structure IsLongestLiteral (literal cs : List Char) : Prop where
  isLiteral : IsLiteral literal
  begins : literal <+: cs
  longest : ∀ l, IsLiteral l → l <+: cs → l.length ≤ literal.length

def isLiteralChar (c : Char) : Bool := c.isDigit || c == '.' || c == 'e' || c == '+' || c == '-'

theorem isLiteralChar_of_isDigit {c : Char} (h : c.isDigit = true) : isLiteralChar c = true := by
  simp [isLiteralChar,h]

theorem IsExponent.all_chars {cs : List Char} (h : IsExponent cs) :
    ∀ c ∈ cs, isLiteralChar c = true := by
  cases h with
  | none => simp
  | unsigned _ hdigits =>
    exact List.forall_mem_cons.mpr ⟨rfl,fun c hc => isLiteralChar_of_isDigit (hdigits c hc)⟩
  | signed hs _ hdigits =>
    refine List.forall_mem_cons.mpr ⟨rfl,List.forall_mem_cons.mpr
      ⟨?_,fun c hc => isLiteralChar_of_isDigit (hdigits c hc)⟩⟩
    rcases hs with rfl | rfl <;> rfl

theorem IsLiteral.all_chars {cs : List Char} (h : IsLiteral cs) :
    ∀ c ∈ cs, isLiteralChar c = true := by
  have all_digits {ds : List Char} (hds : Digits ds) : ∀ c ∈ ds, isLiteralChar c = true :=
    fun c hc => isLiteralChar_of_isDigit (hds c hc)
  cases h with
  | whole hds hes => exact List.forall_mem_append.mpr ⟨all_digits hds,hes.all_chars⟩
  | point hds hfs hes =>
    exact List.forall_mem_append.mpr ⟨all_digits hds,List.forall_mem_cons.mpr
      ⟨rfl,List.forall_mem_append.mpr ⟨all_digits hfs,hes.all_chars⟩⟩⟩

theorem length_le_takeWhile {ds rest : List Char} (h : Digits ds) :
    ds.length ≤ ((ds ++ rest).takeWhile Char.isDigit).length := by
  rw [List.takeWhile_append_of_pos h]
  simp

section Exponents
variable {es : List Char}

theorem isExponent_exponentAt (cs : List Char) : IsExponent (exponentAt cs) := by
  fun_cases exponentAt cs with
  | case1 | case3 | case5 | case7 => exact .none
  | case2 cs ds hds => exact .signed (.inl rfl) (by simpa using hds) (digits_takeWhile cs)
  | case4 cs ds hds => exact .signed (.inr rfl) (by simpa using hds) (digits_takeWhile cs)
  | case6 cs _ _ ds hds => exact .unsigned (by simpa using hds) (digits_takeWhile cs)

theorem exponentAt_isPrefix (cs : List Char) : exponentAt cs <+: cs := by
  fun_cases exponentAt cs with
  | case1 | case3 | case5 | case7 => exact List.nil_prefix
  | case2 cs | case4 cs =>
    exact (List.prefix_cons_inj _).mpr ((List.prefix_cons_inj _).mpr (List.takeWhile_prefix _))
  | case6 cs => exact (List.prefix_cons_inj _).mpr (List.takeWhile_prefix _)

theorem exponentAt_unsigned {c : Char} (hc : c.isDigit = true) (cs : List Char) :
    exponentAt ('e'::c::cs) = 'e'::(c::cs).takeWhile Char.isDigit := by
  have hplus : c ≠ '+' := by
    rintro rfl
    exact absurd hc (by decide)
  have hminus : c ≠ '-' := by
    rintro rfl
    exact absurd hc (by decide)
  simp [exponentAt,hplus,hminus,hc]

theorem exponentAt_signed {s c : Char} (hs : s = '+' ∨ s = '-') (hc : c.isDigit = true)
    (cs : List Char) : exponentAt ('e'::s::c::cs) = 'e'::s::(c::cs).takeWhile Char.isDigit := by
  rcases hs with rfl | rfl <;> simp [exponentAt,hc]

theorem IsExponent.length_le (h : IsExponent es) (rest : List Char) :
    es.length ≤ (exponentAt (es ++ rest)).length := by
  cases h with
  | none => exact Nat.zero_le _
  | @unsigned ds hne hdigits =>
    obtain ⟨d,ds,rfl⟩ := List.exists_cons_of_ne_nil hne
    rw [List.cons_append,List.cons_append,exponentAt_unsigned (hdigits d (by simp)),
      ← List.cons_append]
    simpa using length_le_takeWhile hdigits
  | @signed s ds hs hne hdigits =>
    obtain ⟨d,ds,rfl⟩ := List.exists_cons_of_ne_nil hne
    rw [List.cons_append,List.cons_append,List.cons_append,
      exponentAt_signed hs (hdigits d (by simp)),← List.cons_append]
    simpa using length_le_takeWhile hdigits

end Exponents

section Literals
variable {ds es cs : List Char}

theorem literalAt_digits (h : Digits ds) : literalAt (ds ++ cs) = ds ++ literalAt cs := by
  unfold literalAt
  rw [List.dropWhile_append_of_pos h,List.takeWhile_append_of_pos h]
  simp only
  split <;> simp

theorem literalAt_point (cs : List Char) :
    literalAt ('.'::cs) =
      '.'::(cs.takeWhile Char.isDigit ++ exponentAt (cs.dropWhile Char.isDigit)) := rfl

theorem isLiteral_literalAt (cs : List Char) : IsLiteral (literalAt cs) := by
  unfold literalAt
  simp only
  split
  · exact .point (digits_takeWhile _) (digits_takeWhile _) (isExponent_exponentAt _)
  · exact .whole (digits_takeWhile _) (isExponent_exponentAt _)

theorem literalAt_isPrefix (cs : List Char) : literalAt cs <+: cs := by
  have hsplit := List.takeWhile_append_dropWhile (p := Char.isDigit) (l := cs)
  unfold literalAt
  simp only
  split
  · rename_i rest hrest
    have hfraction := List.takeWhile_append_dropWhile (p := Char.isDigit) (l := rest)
    conv_rhs => rw [← hsplit,hrest,← hfraction]
    exact (List.prefix_append_right_inj _).mpr ((List.prefix_cons_inj _).mpr
      ((List.prefix_append_right_inj _).mpr (exponentAt_isPrefix _)))
  · conv_rhs => rw [← hsplit]
    exact (List.prefix_append_right_inj _).mpr (exponentAt_isPrefix _)

theorem IsExponent.length_le_literalAt (h : IsExponent es) (rest : List Char) :
    es.length ≤ (literalAt (es ++ rest)).length := by
  have hle := h.length_le rest
  cases h with
  | none => exact Nat.zero_le _
  | unsigned | signed => exact hle

theorem IsExponent.length_le_fraction (h : IsExponent es) (rest : List Char) :
    es.length ≤ ((es ++ rest).takeWhile Char.isDigit ++
      exponentAt ((es ++ rest).dropWhile Char.isDigit)).length := by
  have hle := h.length_le rest
  cases h with
  | none => exact Nat.zero_le _
  | unsigned | signed => exact hle

theorem IsLiteral.length_le (h : IsLiteral cs) (rest : List Char) :
    cs.length ≤ (literalAt (cs ++ rest)).length := by
  cases h with
  | @whole ds es hds hes =>
    have hle := hes.length_le_literalAt rest
    rw [List.append_assoc,literalAt_digits hds]
    simpa using hle
  | @point ds fs es hds hfs hes =>
    have hle := hes.length_le_fraction rest
    rw [List.append_assoc,literalAt_digits hds,List.cons_append,literalAt_point,List.append_assoc,
      List.takeWhile_append_of_pos hfs,List.dropWhile_append_of_pos hfs]
    simp only [List.length_append,List.length_cons] at hle ⊢
    omega

theorem isLongestLiteral_iff {literal : List Char} :
    IsLongestLiteral literal cs ↔ literal = literalAt cs := by
  have hlongest (l : List Char) (hl : IsLiteral l) (hbegins : l <+: cs) :
      l.length ≤ (literalAt cs).length := by
    obtain ⟨rest,rfl⟩ := hbegins
    exact hl.length_le rest
  constructor
  · rintro ⟨hliteral,hbegins,hmax⟩
    have hle := hmax _ (isLiteral_literalAt cs) (literalAt_isPrefix cs)
    exact (List.prefix_of_prefix_length_le hbegins (literalAt_isPrefix cs)
      (hlongest _ hliteral hbegins)).eq_of_length_le hle
  · rintro rfl
    exact ⟨isLiteral_literalAt cs,literalAt_isPrefix cs,hlongest⟩

end Literals

section Values
variable {ds fs es cs : List Char}

theorem IsExponent.exists_isPower (h : IsExponent es) : ∃ n, IsPower es n := by
  cases h with
  | none => exact ⟨0,.none⟩
  | unsigned hne hdigits => exact ⟨_,.whole (.inl rfl) .none hne hdigits⟩
  | signed hs hne hdigits =>
    rcases hs with rfl | rfl
    · exact ⟨_,.whole (.inl rfl) .plus hne hdigits⟩
    · exact ⟨_,.whole (.inl rfl) .minus hne hdigits⟩

/-- A literal has no value only if there is no digit in front of its exponent. -/
theorem IsLiteral.no_mantissa (h : IsLiteral cs) (hnone : readMagnitude cs = none) :
    IsExponent cs ∨ ∃ es, IsExponent es ∧ cs = '.'::es := by
  cases h with
  | @whole ds es hds hes =>
    obtain ⟨n,hn⟩ := hes.exists_isPower
    have hempty : ds = [] := by
      simpa [readMagnitude,splitPoint_digits hds hn.head?,hn.readPower_eq] using hnone
    subst hempty
    exact .inl hes
  | @point ds fs es hds hfs hes =>
    obtain ⟨n,hn⟩ := hes.exists_isPower
    have hstop : ∀ c ∈ es.head?, c.isDigit = false := fun c hc => (hn.head? c hc).1
    have hempty : ds = [] ∧ fs = [] := by
      simpa [readMagnitude,splitPoint_fraction hds hfs hstop,hn.readPower_eq] using hnone
    obtain ⟨rfl,rfl⟩ := hempty
    exact .inr ⟨es,hes,rfl⟩

theorem read_eq_readMagnitude {c : Char} (hc : c.isDigit = true ∨ c = '.') (cs : List Char) :
    Number.read (c::cs) = readMagnitude (c::cs) := by
  simpa using @read_signed [] (c::cs) false .none (by simpa using hc)

theorem IsLiteral.begins_of_read {x : Float} (h : IsLiteral cs) (hx : Number.read cs = some x) :
    ∃ c rest, cs = c::rest ∧ (c.isDigit = true ∨ c = '.') := by
  have hlower : Char.toLower 'e' = 'e' := by decide
  cases h with
  | @whole ds es hds hes =>
    cases ds with
    | cons d ds => exact ⟨d,_,rfl,.inl (hds d (by simp))⟩
    | nil =>
      cases hes with
      | none => cases hx
      | unsigned | signed =>
        simp [Number.read,takeSign,readWord,hlower,readMagnitude,splitPoint] at hx
  | @point ds fs es hds =>
    cases ds with
    | cons d ds => exact ⟨d,_,rfl,.inl (hds d (by simp))⟩
    | nil => exact ⟨'.',_,rfl,.inr rfl⟩

end Values
end Formula
end NumericWorkbench
