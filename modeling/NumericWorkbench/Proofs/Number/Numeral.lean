import NumericWorkbench.Number.Input
import NumericWorkbench.Proofs.Number.Scaled
import NumericWorkbench.Proofs.Number.Text
import NumericWorkbench.Proofs.Text.Pieces
/-! The texts of numbers as a grammar, and the numbers that they denote. A text without other
characters is read exactly if it belongs to the grammar, and it is read as the number that is nearest to
what it denotes. -/
namespace NumericWorkbench
namespace Number
open Text

/-- Digits with at most one point among them, and their value. A point has a digit on at least one
side. -/
inductive IsMantissa (points : List Char) : List Char → ℚ → Prop
  | whole {ds : List Char} : ds ≠ [] → Digits ds → IsMantissa points ds (ofDigits ds)
  | point {p : Char} {ds fs : List Char} : p ∈ points → ds ≠ [] ∨ fs ≠ [] → Digits ds → Digits fs →
      IsMantissa points (ds ++ p::fs) (ofDigits ds+ofDigits fs/10^fs.length)

/-- Nothing, or an `e` and a whole number. -/
inductive IsPower : List Char → ℤ → Prop
  | none : IsPower [] 0
  | whole {c : Char} {sign ds : List Char} {negative : Bool} : c = 'e' ∨ c = 'E' →
      IsSign sign negative → ds ≠ [] → Digits ds →
      IsPower (c::(sign ++ ds)) (if negative then -ofDigits ds else ofDigits ds)

/-- A number as it is written, its sign and its magnitude. -/
inductive Denotes (points : List Char) : List Char → Bool → ℚ → Prop
  | intro {sign mantissa power : List Char} {negative : Bool} {x : ℚ} {e : ℤ} :
      IsSign sign negative → IsMantissa points mantissa x → IsPower power e →
      Denotes points (sign ++ (mantissa ++ power)) negative (x*10^e)

theorem ofDigits_append (ds fs : List Char) :
    ofDigits (ds ++ fs) = 10^fs.length*ofDigits ds+ofDigits fs := by
  rw [ofDigits,Nat.ofDigitChars_append,Nat.ofDigitChars_eq_ofDigitChars_zero]
  rfl

theorem ofDigits_point (ds fs : List Char) :
    (ofDigits (ds ++ fs) : ℚ) = (ofDigits ds+ofDigits fs/10^fs.length)*10^fs.length := by
  rw [ofDigits_append]
  push_cast
  field_simp

section Readers
variable {sign ds fs cs rest : List Char} {negative : Bool} {e : ℤ}

theorem unsigned_digits (h : Digits ds) (hne : ds ≠ []) (rest : List Char) :
    Unsigned (ds ++ rest) := by
  obtain ⟨d,ds,rfl⟩ := List.exists_cons_of_ne_nil hne
  rintro c ⟨⟩
  exact ne_sign_of_isDigit (h d (by simp))

theorem takeSign_sound (cs : List Char) :
    ∃ sign, IsSign sign (takeSign cs).1 ∧ cs = sign ++ (takeSign cs).2 := by
  unfold takeSign
  split
  · exact ⟨_,.plus,rfl⟩
  · exact ⟨_,.minus,rfl⟩
  · exact ⟨_,.none,rfl⟩

theorem readDigits_eq_some {n : ℕ} :
    readDigits ds = some n ↔ ds ≠ [] ∧ Digits ds ∧ n = ofDigits ds := by
  rw [readDigits]
  split
  · rename_i hbad
    refine iff_of_false nofun fun ⟨hne,hdigits,_⟩ => ?_
    simp only [Bool.or_eq_true,List.isEmpty_iff,hne,false_or,Bool.not_eq_true',
      List.all_eq_false] at hbad
    obtain ⟨c,hc,hdigit⟩ := hbad
    exact hdigit (hdigits c hc)
  · rename_i hgood
    simp only [Bool.or_eq_true,List.isEmpty_iff,not_or,Bool.not_eq_true',Bool.not_eq_false] at hgood
    rw [Option.some_inj,eq_comm]
    exact ⟨fun h => ⟨hgood.1,List.all_eq_true.mp hgood.2,h⟩,fun h => h.2.2⟩

theorem readPower_cons {c : Char} (hc : c = 'e' ∨ c = 'E') (cs : List Char) :
    readPower (c::cs) = (readDigits (takeSign cs).2).map fun n : ℕ =>
      if (takeSign cs).1 then -(n : ℤ) else n := by
  rw [readPower,if_pos hc]
  cases h : readDigits (takeSign cs).2 with
  | none | some => simp [h]

theorem IsPower.readPower_eq (h : IsPower cs e) : readPower cs = some e := by
  cases h with
  | none => rfl
  | @whole c sign ds negative hc hsign hne hdigits =>
    have htake : takeSign (sign ++ ds) = (negative,ds) :=
      takeSign_append hsign (by simpa using unsigned_digits hdigits hne [])
    rw [readPower_cons hc,htake,readDigits_eq_some.mpr ⟨hne,hdigits,rfl⟩]
    rfl

theorem isPower_of_readPower (h : readPower cs = some e) : IsPower cs e := by
  cases cs with
  | nil =>
    cases h
    exact .none
  | cons c cs =>
    by_cases hc : c = 'e' ∨ c = 'E'
    · rw [readPower_cons hc] at h
      obtain ⟨n,hn,rfl⟩ := Option.map_eq_some_iff.mp h
      obtain ⟨hne,hdigits,rfl⟩ := readDigits_eq_some.mp hn
      obtain ⟨sign,hsign,hcs⟩ := takeSign_sound cs
      have hpower : IsPower (c::(sign ++ (takeSign cs).2)) _ := .whole hc hsign hne hdigits
      rwa [← hcs] at hpower
    · rw [readPower,if_neg hc] at h
      cases h

theorem IsPower.head? (h : IsPower cs e) : ∀ c ∈ cs.head?, c.isDigit = false ∧ c ≠ '.' := by
  cases h with
  | none => simp
  | whole hc =>
    rintro c ⟨⟩
    rcases hc with rfl | rfl <;> decide

theorem splitPoint_digits (hds : Digits ds)
    (hrest : ∀ c ∈ rest.head?, c.isDigit = false ∧ c ≠ '.') :
    splitPoint (ds ++ rest) = (ds,[],rest) := by
  have hstop : ∀ c ∈ rest.head?, c.isDigit = false := fun c hc => (hrest c hc).1
  rw [splitPoint,dropWhile_exact hds hstop,takeWhile_exact hds hstop]
  split
  · exact absurd rfl (hrest '.' rfl).2
  · rfl

theorem splitPoint_fraction (hds : Digits ds) (hfs : Digits fs)
    (hrest : ∀ c ∈ rest.head?, c.isDigit = false) :
    splitPoint (ds ++ '.'::(fs ++ rest)) = (ds,fs,rest) := by
  have hpoint : ∀ c ∈ ('.'::(fs ++ rest)).head?, c.isDigit = false := by
    rintro c ⟨⟩
    rfl
  rw [splitPoint,dropWhile_exact hds hpoint,takeWhile_exact hds hpoint]
  simp only
  rw [dropWhile_exact hfs hrest,takeWhile_exact hfs hrest]

theorem splitPoint_sound (cs : List Char) : Digits (splitPoint cs).1 ∧ Digits (splitPoint cs).2.1 ∧
    ((splitPoint cs).2.1 = [] ∧ cs = (splitPoint cs).1 ++ (splitPoint cs).2.2 ∨
      cs = (splitPoint cs).1 ++ '.'::((splitPoint cs).2.1 ++ (splitPoint cs).2.2)) := by
  have hsplit := List.takeWhile_append_dropWhile (p := Char.isDigit) (l := cs)
  unfold splitPoint
  split
  · rename_i rest hrest
    refine ⟨digits_takeWhile _,digits_takeWhile _,.inr ?_⟩
    rw [hrest] at hsplit
    simpa using hsplit.symm
  · exact ⟨digits_takeWhile _,by simp [Digits],.inl ⟨rfl,hsplit.symm⟩⟩

end Readers

section Reading
variable {cs rest : List Char} {negative : Bool} {x : ℚ} {e : ℤ} {z : Float}

theorem IsMantissa.head? (h : IsMantissa ['.'] cs x) (rest : List Char) :
    ∀ c ∈ (cs ++ rest).head?, c.isDigit = true ∨ c = '.' := by
  cases h with
  | whole hne hdigits =>
    obtain ⟨d,ds,rfl⟩ := List.exists_cons_of_ne_nil hne
    rintro c ⟨⟩
    exact .inl (hdigits d (by simp))
  | @point p ds fs hp _ hdigits =>
    cases ds with
    | nil =>
      rintro c ⟨⟩
      exact .inr (by simpa using hp)
    | cons d ds =>
      rintro c ⟨⟩
      exact .inl (hdigits d (by simp))

theorem IsMantissa.readMagnitude_eq (h : IsMantissa ['.'] cs x) (hpower : IsPower rest e) :
    ∃ m d, readMagnitude (cs ++ rest) = some (scaled m d) ∧ (m : ℚ)*10^d = x*10^e := by
  cases h with
  | whole hne hdigits =>
    refine ⟨ofDigits cs,e,?_,rfl⟩
    simp [readMagnitude,splitPoint_digits hdigits hpower.head?,hpower.readPower_eq,hne]
  | @point p ds fs hp hsome hds hfs =>
    obtain rfl : p = '.' := by simpa using hp
    have hstop : ∀ c ∈ rest.head?, c.isDigit = false := fun c hc => (hpower.head? c hc).1
    refine ⟨ofDigits (ds ++ fs),e-fs.length,?_,?_⟩
    · rw [List.append_assoc,List.cons_append,readMagnitude,splitPoint_fraction hds hfs hstop]
      simp only
      rw [if_neg (by simpa [or_iff_not_imp_left] using hsome),hpower.readPower_eq]
      rfl
    · rw [ofDigits_point,zpow_sub₀ (by norm_num),zpow_natCast]
      field_simp

theorem exists_isMantissa_of_readMagnitude (h : readMagnitude cs = some z) :
    ∃ mantissa power x e, cs = mantissa ++ power ∧ IsMantissa ['.'] mantissa x ∧ IsPower power e := by
  obtain ⟨hds,hfs,hsplit⟩ := splitPoint_sound cs
  rw [readMagnitude] at h
  simp only at h
  split at h
  · cases h
  rename_i hsome
  obtain ⟨e,he,-⟩ := Option.map_eq_some_iff.mp h
  have hpower := isPower_of_readPower he
  rcases hsplit with ⟨hempty,hcs⟩ | hcs
  · exact ⟨_,_,_,_,hcs,.whole (by simpa [hempty] using hsome) hds,hpower⟩
  · refine ⟨(splitPoint cs).1 ++ '.'::(splitPoint cs).2.1,_,_,_,?_,.point (by simp) ?_ hds hfs,hpower⟩
    · simpa using hcs
    · simpa [or_iff_not_imp_left] using hsome

theorem Denotes.exists_read (h : Denotes ['.'] cs negative x) :
    ∃ z, read cs = some z ∧ Rounds z negative x := by
  obtain ⟨hsign,hmantissa,hpower⟩ := h
  rename_i mantissa power x e
  obtain ⟨m,d,hread,hvalue⟩ := hmantissa.readMagnitude_eq hpower
  rw [read_signed hsign (hmantissa.head? power),hread,← hvalue]
  refine ⟨_,rfl,?_⟩
  cases negative with
  | false => exact rounds_scaled m d
  | true => exact (rounds_scaled m d).neg

/-- Without letters of words, nothing else is read. -/
theorem exists_denotes_of_read (htyped : ∀ c ∈ cs, isTyped c = true) (h : read cs = some z) :
    ∃ negative x, Denotes ['.'] cs negative x := by
  obtain ⟨sign,hsign,hcs⟩ := takeSign_sound cs
  have htail : ∀ c ∈ (takeSign cs).2.head?, isTyped c = true := by
    intro c hc
    refine htyped c ?_
    rw [hcs]
    exact List.mem_append_right _ (List.mem_of_head? hc)
  rw [read_eq htail] at h
  obtain ⟨y,hy,-⟩ := Option.map_eq_some_iff.mp h
  obtain ⟨mantissa,power,x,e,hbody,hmantissa,hpower⟩ := exists_isMantissa_of_readMagnitude hy
  rw [hcs,hbody]
  exact ⟨_,_,.intro hsign hmantissa hpower⟩

end Reading

end Number
end NumericWorkbench
