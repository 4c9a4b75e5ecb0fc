import NumericWorkbench.Number.Short
import NumericWorkbench.Proofs.Number.Typed
import NumericWorkbench.Proofs.Number.Written
/-! The numbers of reports can be typed back. What comes back has twelve significant digits at most, and
it is reported as before. -/
namespace NumericWorkbench
namespace Number

section Reading
variable {x y : Float} {m : ℚ}

theorem Denotes.mono {points points' cs : List Char} {negative : Bool} (h : points ⊆ points')
    (hdenotes : Denotes points cs negative m) : Denotes points' cs negative m := by
  obtain ⟨hsign,hmantissa,hpower⟩ := hdenotes
  refine .intro hsign ?_ hpower
  cases hmantissa with
  | whole hne hdigits => exact .whole hne hdigits
  | point hp hsome hds hfs => exact .point (h hp) hsome hds hfs

theorem readReal_of_denotes {cs : List Char} {negative : Bool} (hy : y.isFinite = true)
    (h : Denotes ['.'] cs negative m) (hrounds : Rounds y negative m) : readReal cs = some y := by
  refine readReal_eq_some_iff.mpr ⟨negative,m,⟨[],cs,[],?_,by simp,by simp,?_⟩,hy,hrounds⟩
  · simp
  · exact h.mono (by simp)

theorem readReal_written (hy : y.isFinite = true) :
    readReal (plainChars y) = some y ∧ readReal (scientificChars y) = some y := by
  obtain ⟨m,hplain,hrounds⟩ := exists_denotes_plain hy
  obtain ⟨m',hscientific,hrounds'⟩ := exists_denotes_scientific hy
  exact ⟨readReal_of_denotes hy hplain hrounds,readReal_of_denotes hy hscientific hrounds'⟩

theorem readReal_of_not_finite (h : x.isFinite = false) : readReal (plainChars x) = none := by
  rw [plainChars,written]
  rcases shape_of_not_finite h with hshape | ⟨negative,hshape⟩ <;> rw [hshape]
  · rfl
  · cases negative <;> rfl

end Reading

section Twelve
variable {x : Float}

theorem Binary.IsCanonical.value_le_largest {b : Binary} (h : b.IsCanonical) :
    b.value ≤ largest := by
  have hmantissa : (b.mantissa : ℚ) ≤ (2^53-1 : ℕ) := Nat.cast_le.mpr (Nat.le_pred_of_lt h.mantissa_lt)
  have hpower : (2 : ℚ)^b.exponent ≤ 2^(971 : ℤ) := zpow_le_zpow_right₀ one_le_two h.exponent_le
  rw [largest_eq]
  exact mul_le_mul hmantissa hpower (two_zpow_pos _).le (Nat.cast_nonneg _)

theorem abs_value_le_largest (h : x.isFinite = true) : |value x| ≤ largest := by
  obtain ⟨b,-,hb,hvalue⟩ := exists_binary h
  rw [hvalue,abs_signed,abs_of_nonneg b.value_nonneg]
  exact hb.value_le_largest

theorem value_eq_signed (h : x.isFinite = true) : value x = signed (signBit x) |value x| := by
  obtain ⟨b,-,-,hvalue⟩ := exists_binary h
  conv_lhs => rw [hvalue]
  rw [hvalue,abs_signed,abs_of_nonneg b.value_nonneg]

theorem significant_signed (k : ℕ) (negative : Bool) (m : ℚ) :
    significant k (signed negative m) = signed negative (significant k m) := by
  cases negative with
  | false => rfl
  | true => exact significant_neg k m

theorem toTwelve_rounds (h : x.isFinite = true) :
    Rounds (toTwelve x) (signBit x) (significant 12 |value x|) := by
  obtain ⟨y,hread,hrounds⟩ := (denotes_scientificTo 11 h).exists_read
  rw [toTwelve,hread]
  exact hrounds

theorem isFinite_toTwelve (h : x.isFinite = true) : (toTwelve x).isFinite = true := by
  rw [(toTwelve_rounds h).isFinite_iff]
  have hle := significant_le_largest (abs_nonneg _) (abs_value_le_largest h)
  exact (isGrid_largest.nearest_le hle).trans_lt largest_lt

theorem value_toTwelve (h : x.isFinite = true) :
    value (toTwelve x) = nearest (significant 12 (value x)) := by
  rw [(toTwelve_rounds h).value_eq (isFinite_toTwelve h),← nearest_signed,← significant_signed,
    ← value_eq_signed h]

theorem signBit_toTwelve (h : x.isFinite = true) : signBit (toTwelve x) = signBit x :=
  (toTwelve_rounds h).signBit_eq (isFinite_toTwelve h)

theorem toTwelve_toTwelve (h : x.isFinite = true) : toTwelve (toTwelve x) = toTwelve x := by
  have hfinite := isFinite_toTwelve h
  refine eq_of_value (isFinite_toTwelve hfinite) hfinite ?_ (signBit_toTwelve hfinite)
  rw [value_toTwelve hfinite,value_toTwelve h]
  exact nearest_significant_nearest (by norm_num) (by norm_num) _

theorem shortChars_eq (h : x.isFinite = true) :
    shortChars x = let y := toTwelve x
      if 1e15 ≤ y.abs || (y.abs < 1e-6 && y.abs != 0) then scientificChars y else plainChars y := by
  obtain ⟨hnan,hinf⟩ := isFinite_iff_not.mp h
  rw [shortChars,hnan,hinf]
  rfl

/-- A finite number is reported by a text that is typed as the nearest number to its twelve significant
digits, and that number is reported by the same text. What is not finite cannot be typed back. -/
theorem readReal_short (x : Float) :
    (x.isFinite = true → ∃ y, readReal (short x).toList = some y ∧ y.isFinite = true ∧
      value y = nearest (significant 12 (value x)) ∧ signBit y = signBit x ∧ short y = short x) ∧
    (x.isFinite = false → readReal (short x).toList = none) := by
  have hchars : (short x).toList = shortChars x := String.toList_ofList
  rw [hchars]
  constructor
  · intro h
    have hfinite := isFinite_toTwelve h
    refine ⟨toTwelve x,?_,hfinite,value_toTwelve h,signBit_toTwelve h,?_⟩
    · obtain ⟨hplain,hscientific⟩ := readReal_written hfinite
      rw [shortChars_eq h]
      dsimp only
      split
      · exact hscientific
      · exact hplain
    · rw [short,short,shortChars_eq h,shortChars_eq hfinite,toTwelve_toTwelve h]
  · intro h
    have hwords : (x.isNaN || x.isInf) = true := by
      by_contra hneither
      rw [Bool.not_eq_true,Bool.or_eq_false_iff] at hneither
      rw [isFinite_iff_not.mpr hneither] at h
      cases h
    rw [shortChars,if_pos hwords]
    exact readReal_of_not_finite h

/-- More than twelve digits, and none. -/
theorem readReal_short_third : Float.isFinite (1.0/3.0) = true ∧
    (∃ y, readReal (short (1.0/3.0)).toList = some y ∧ y.isFinite = true ∧
      value y = nearest (significant 12 (value (1.0/3.0))) ∧ signBit y = signBit (1.0/3.0) ∧
      short y = short (1.0/3.0)) ∧
    infinity.isFinite = false ∧ readReal (short infinity).toList = none := by
  have hthird : Float.isFinite (1.0/3.0) = true := by decide +kernel
  have hinfinity : infinity.isFinite = false := by decide +kernel
  exact ⟨hthird,(readReal_short _).1 hthird,hinfinity,(readReal_short _).2 hinfinity⟩

end Twelve

end Number
end NumericWorkbench
