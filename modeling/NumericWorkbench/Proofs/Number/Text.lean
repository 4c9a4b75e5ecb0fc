import NumericWorkbench.Number.Input
import NumericWorkbench.Number.Text
import NumericWorkbench.Proofs.Number.Sign
/-! What the texts of numbers look like, and what reading them back says of their digits. -/
namespace NumericWorkbench
namespace Number

def Digits (cs : List Char) : Prop := ∀ c ∈ cs, c.isDigit = true

/-- A decimal without sign: digits, and possibly a point with digits behind it. -/
inductive IsDecimal : List Char → Prop
  | whole {ds : List Char} : ds ≠ [] → Digits ds → IsDecimal ds
  | point {ds fs : List Char} : ds ≠ [] → Digits ds → Digits fs → IsDecimal (ds ++ '.'::fs)

theorem digits_digitsOf (n : Nat) : Digits (digitsOf n) :=
  fun _ => Nat.isDigit_of_mem_toDigits (by decide) (by decide)

theorem digits_replicate (n : Nat) : Digits (List.replicate n '0') := by
  intro c hc
  rw [List.eq_of_mem_replicate hc]
  rfl

theorem Digits.append {cs ds : List Char} (hcs : Digits cs) (hds : Digits ds) :
    Digits (cs ++ ds) := List.forall_mem_append.mpr ⟨hcs,hds⟩

theorem digits_takeWhile (cs : List Char) : Digits (cs.takeWhile Char.isDigit) :=
  fun _ hc => List.mem_takeWhile_imp hc

theorem isDecimal_positional (d : Decimal) : IsDecimal (positional d) := by
  have hne : digitsOf d.digits ≠ [] := Nat.toDigits_ne_nil
  have hdigits := digits_digitsOf d.digits
  unfold positional
  simp only
  split_ifs with h₁ h₂
  · exact .whole (by simp [hne]) (hdigits.append (digits_replicate _))
  · refine .point ?_ (fun c hc => hdigits c (List.mem_of_mem_take hc))
      fun c hc => hdigits c (List.mem_of_mem_drop hc)
    rw [Ne,List.take_eq_nil_iff,not_or]
    exact ⟨by omega,hne⟩
  · exact @IsDecimal.point ['0'] _ (by simp) (digits_replicate 1)
      ((digits_replicate _).append hdigits)

theorem plainChars_eq {x : Float} (h : x.isFinite = true) :
    ∃ body, IsDecimal body ∧ plainChars x = sign (signBit x) ++ body := by
  obtain ⟨b,hb⟩ := exists_shape h
  rw [plainChars,written,hb]
  refine ⟨_,?_,rfl⟩
  split
  · exact .whole (by simp) (digits_replicate 1)
  · exact isDecimal_positional _

theorem IsDecimal.exists_digit {cs : List Char} (h : IsDecimal cs) :
    ∃ c rest, cs = c::rest ∧ c.isDigit = true := by
  cases h with
  | whole hne hdigits | point hne hdigits _ =>
    obtain ⟨c,ds,rfl⟩ := List.exists_cons_of_ne_nil hne
    exact ⟨c,_,rfl,hdigits c (by simp)⟩

theorem toLower_of_isDigit {c : Char} (h : c.isDigit = true) : c.toLower = c := by
  simp only [Char.isDigit,Bool.and_eq_true,decide_eq_true_eq] at h
  rw [Char.toLower,dif_neg]
  rintro ⟨hupper,-⟩
  exact absurd (UInt32.le_trans hupper h.2) (by decide)

inductive IsSign : List Char → Bool → Prop
  | none : IsSign [] false
  | plus : IsSign ['+'] false
  | minus : IsSign ['-'] true

theorem isSign_sign (negative : Bool) : IsSign (sign negative) negative := by
  cases negative
  · exact .none
  · exact .minus

def Unsigned (cs : List Char) : Prop := ∀ c ∈ cs.head?, c ≠ '+' ∧ c ≠ '-'

theorem ne_sign_of_isDigit {c : Char} (h : c.isDigit = true) : c ≠ '+' ∧ c ≠ '-' := by
  constructor
  all_goals
    rintro rfl
    cases h

theorem takeSign_append {sign cs : List Char} {negative : Bool} (h : IsSign sign negative)
    (hcs : Unsigned cs) : takeSign (sign ++ cs) = (negative,cs) := by
  cases h with
  | plus | minus => rfl
  | none =>
    rw [List.nil_append,takeSign.eq_def]
    split
    · exact absurd rfl (hcs '+' rfl).1
    · exact absurd rfl (hcs '-' rfl).2
    · rfl

theorem readWord_eq_none {cs : List Char} (h : ∀ c ∈ cs.head?, isTyped c = true) :
    readWord cs = none := by
  have letter {c : Char} (hc : isTyped c = true) : c.toLower ≠ 'i' ∧ c.toLower ≠ 'n' := by
    simp only [isTyped,isSeparator,Bool.or_eq_true,beq_iff_eq] at hc
    rcases hc with ((((hc | hc | hc) | hc) | hc) | hc) | hc
    · rw [toLower_of_isDigit hc]
      constructor
      all_goals
        rintro rfl
        cases hc
    all_goals
      subst hc
      decide
  cases cs with
  | nil => rfl
  | cons c cs =>
    obtain ⟨hi,hn⟩ := letter (h c rfl)
    simp [readWord,hi,hn]

theorem read_eq {cs : List Char} (h : ∀ c ∈ (takeSign cs).2.head?, isTyped c = true) :
    read cs = (readMagnitude (takeSign cs).2).map fun z => if (takeSign cs).1 then -z else z := by
  simp [read,readWord_eq_none h]

theorem read_signed {sign cs : List Char} {negative : Bool} (hsign : IsSign sign negative)
    (h : ∀ c ∈ cs.head?, c.isDigit = true ∨ c = '.') :
    read (sign ++ cs) = (readMagnitude cs).map fun z => if negative then -z else z := by
  have htake : takeSign (sign ++ cs) = (negative,cs) := by
    refine takeSign_append hsign fun c hc => ?_
    rcases h c hc with hc | rfl
    · exact ne_sign_of_isDigit hc
    · decide
  have htyped : ∀ c ∈ cs.head?, isTyped c = true := by
    intro c hc
    rcases h c hc with hc | rfl
    · simp [isTyped,hc]
    · rfl
  rw [read_eq (by rwa [htake]),htake]

theorem IsDecimal.read_eq {cs : List Char} (h : IsDecimal cs) (negative : Bool) :
    read (sign negative ++ cs) =
      (readMagnitude cs).map fun x => if negative then -x else x := by
  obtain ⟨c,rest,rfl,hc⟩ := h.exists_digit
  exact read_signed (isSign_sign negative) (by simp [hc])

/-- The text of a number that can be read back, without its sign. -/
theorem plainChars_of_read {x : Float} (hfinite : x.isFinite = true)
    (h : read (plainChars x) = some x) : ∃ body, IsDecimal body ∧
      plainChars x = sign (signBit x) ++ body ∧
      readMagnitude body = some (if signBit x then -x else x) := by
  obtain ⟨body,hbody,htext⟩ := plainChars_eq hfinite
  rw [htext,hbody.read_eq] at h
  obtain ⟨y,hy,hyx⟩ := Option.map_eq_some_iff.mp h
  refine ⟨body,hbody,htext,?_⟩
  rw [hy]
  cases hsign : signBit x with
  | false => simpa [hsign] using hyx
  | true =>
    simp only [hsign,if_true] at hyx
    subst hyx
    simp [neg_neg (isFinite_of_neg hfinite)]

end Number
end NumericWorkbench
