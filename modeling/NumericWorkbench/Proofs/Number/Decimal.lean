import NumericWorkbench.Number.Rounding
import NumericWorkbench.Proofs.Number.Shape
import NumericWorkbench.Proofs.Number.Significant
/-! The arithmetic with whole numbers behind the decimals: numerators and denominators stand for the
exact quotient, and rounding them gives its significant digits. -/
namespace NumericWorkbench
namespace Number

def Decimal.value (d : Decimal) : ℚ := d.digits*10^d.exponent

theorem pow_div_pow {b : ℚ} (hb : b ≠ 0) (e : ℤ) : b^e.toNat/b^(-e).toNat = b^e := by
  rw [← zpow_natCast,← zpow_natCast,← zpow_sub₀ hb,Int.toNat_sub_toNat_neg]

section Quotients
variable {num den : ℕ}

theorem twoPower_eq (n : ℕ) (e : ℤ) : twoPower n e = (n*2^e.toNat,2^(-e).toNat) := rfl

theorem twoPower_div (n : ℕ) (e : ℤ) : ((twoPower n e).1 : ℚ)/(twoPower n e).2 = n*2^e := by
  rw [twoPower_eq,← pow_div_pow two_ne_zero e]
  push_cast
  rw [mul_div_assoc]

theorem inUnits_eq (num den : ℕ) (p : ℤ) :
    inUnits num den p = (num*10^(-p).toNat,den*10^p.toNat) := rfl

theorem inUnits_div (num den : ℕ) (p : ℤ) :
    ((inUnits num den p).1 : ℚ)/(inUnits num den p).2 = num/den/10^p := by
  rw [inUnits_eq,← pow_div_pow (by norm_num) p]
  push_cast
  rw [div_div_div_eq]

theorem digitCount_pos (n : ℕ) : 0 < digitCount n := List.length_pos_iff.mpr Nat.toDigits_ne_nil

theorem lt_pow_digitCount (n : ℕ) : n < 10^digitCount n :=
  (Nat.length_toDigits_le_iff (by norm_num) (digitCount_pos n)).mp le_rfl

theorem pow_digitCount_le {n : ℕ} (h : 0 < n) : 10^(digitCount n-1) ≤ n := by
  rcases Nat.eq_zero_or_pos (digitCount n-1) with hzero | hpos
  · rw [hzero,pow_zero]
    exact h
  · refine not_lt.mp fun hlt => ?_
    have hle : digitCount n ≤ digitCount n-1 :=
      (Nat.length_toDigits_le_iff (by norm_num) hpos).mpr hlt
    have := digitCount_pos n
    omega

theorem log_eq_of_bounds {x : ℚ} {k : ℤ} (hx : 0 < x) (hle : 10^k ≤ x) (hlt : x < 10^(k+1)) :
    Int.log 10 x = k := by
  refine le_antisymm (Int.lt_add_one_iff.mp ?_) ?_
  · exact (Int.lt_zpow_iff_log_lt (b := 10) (by norm_num) hx).mp (by exact_mod_cast hlt)
  · exact (Int.zpow_le_iff_le_log (b := 10) (by norm_num) hx).mp (by exact_mod_cast hle)

theorem leadingPower_eq (hnum : 0 < num) (hden : 0 < den) :
    leadingPower num den = Int.log 10 (num/den : ℚ) := by
  have hden' : (0 : ℚ) < den := Nat.cast_pos.mpr hden
  refine (log_eq_of_bounds (div_pos (Nat.cast_pos.mpr hnum) hden') ?_ ?_).symm
  all_goals
    rw [leadingPower]
    split
  · rename_i hle
    have hbelow := (Nat.le_div_iff_mul_le hden).mp (pow_digitCount_le (Nat.div_pos hle hden))
    rw [le_div_iff₀ hden',← Nat.cast_pred (digitCount_pos _),zpow_natCast]
    exact_mod_cast hbelow
  · rename_i hlt
    have habove := (Nat.div_lt_iff_lt_mul hnum).mp (lt_pow_digitCount ((den-1)/num))
    rw [zpow_neg,zpow_natCast,← one_div,div_le_div_iff₀ (by positivity) hden',one_mul]
    exact_mod_cast (show den ≤ num*10^digitCount ((den-1)/num) by rw [mul_comm]; omega)
  · have habove := (Nat.div_lt_iff_lt_mul hden).mp (lt_pow_digitCount (num/den))
    rw [div_lt_iff₀ hden',sub_add_cancel,zpow_natCast]
    exact_mod_cast habove
  · rename_i hlt
    have hpos : 0 < (den-1)/num := Nat.div_pos (by omega) hnum
    have hbelow := (Nat.le_div_iff_mul_le hnum).mp (pow_digitCount_le hpos)
    have hpower : -(digitCount ((den-1)/num) : ℤ)+1 = -(digitCount ((den-1)/num)-1 : ℕ) := by
      rw [Nat.cast_pred (digitCount_pos _)]
      ring
    rw [hpower,zpow_neg,zpow_natCast,← one_div,div_lt_div_iff₀ hden' (by positivity),one_mul]
    exact_mod_cast (show num*10^(digitCount ((den-1)/num)-1) < den by rw [mul_comm]; omega)

theorem nearestEven_eq (n : ℕ) {d : ℕ} (hd : 0 < d) : nearestEven n d = toEven (n/d : ℚ) := by
  have hd' : (0 : ℚ) < d := Nat.cast_pos.mpr hd
  have hrest : n-n/d*d = n%d := by
    have := Nat.div_add_mod n d
    rw [mul_comm]
    omega
  have hsplit : (n : ℚ)/d = (n/d : ℕ)+(n%d : ℕ)/d := by
    rw [div_eq_iff hd'.ne',add_mul,div_mul_cancel₀ _ hd'.ne']
    exact_mod_cast (Nat.div_add_mod' n d).symm
  have hbelow : (n : ℚ)/d < (n/d : ℕ)+1/2 ↔ 2*(n%d) < d := by
    rw [hsplit,add_lt_add_iff_left,div_lt_div_iff₀ hd' two_pos,one_mul,mul_comm]
    exact_mod_cast Iff.rfl
  have habove : ((n/d : ℕ) : ℚ)+1/2 < n/d ↔ d < 2*(n%d) := by
    rw [hsplit,add_lt_add_iff_left,div_lt_div_iff₀ two_pos hd',one_mul,mul_comm]
    exact_mod_cast Iff.rfl
  rw [toEven,Nat.floor_div_eq_div,nearestEven,hrest]
  simp only [hbelow,habove]
  rcases lt_trichotomy (2*(n%d)) d with h | h | h
  · rw [compare_lt_iff_lt.mpr h,if_pos h]
  · rw [compare_eq_iff_eq.mpr h,if_neg h.not_lt,if_neg h.not_gt]
    rcases Nat.mod_two_eq_zero_or_one (n/d) with hmod | hmod <;> simp [hmod]
  · rw [compare_gt_iff_gt.mpr h,if_neg h.not_gt,if_pos h]

end Quotients

section Magnitudes
variable {b : Binary}

theorem Binary.value_pos (h : 0 < b.mantissa) : 0 < b.value :=
  mul_pos (Nat.cast_pos.mpr h) (two_zpow_pos b.exponent)

theorem twoPower_pos (h : 0 < b.mantissa) :
    0 < (twoPower b.mantissa b.exponent).1 ∧ 0 < (twoPower b.mantissa b.exponent).2 := by
  rw [twoPower_eq]
  exact ⟨Nat.mul_pos h (Nat.pow_pos two_pos),Nat.pow_pos two_pos⟩

theorem place_eq (k : ℕ) (h : 0 < b.mantissa) :
    leadingPower (twoPower b.mantissa b.exponent).1 (twoPower b.mantissa b.exponent).2-k+1 =
      decimalPlace k b.value := by
  rw [leadingPower_eq (twoPower_pos h).1 (twoPower_pos h).2,twoPower_div,
    decimalPlace_of_pos (Binary.value_pos h)]
  rfl

/-- A magnitude in units of a power of ten. -/
def Binary.inUnits (b : Binary) (p : ℤ) : ℕ × ℕ :=
  Number.inUnits (twoPower b.mantissa b.exponent).1 (twoPower b.mantissa b.exponent).2 p

theorem Binary.inUnits_pos (h : 0 < b.mantissa) (p : ℤ) : 0 < (b.inUnits p).2 :=
  Nat.mul_pos (twoPower_pos h).2 (Nat.pow_pos (by norm_num))

theorem Binary.inUnits_div (b : Binary) (p : ℤ) :
    ((b.inUnits p).1 : ℚ)/(b.inUnits p).2 = b.value/10^p := by
  rw [Binary.inUnits,Number.inUnits_div,twoPower_div]
  rfl

/-- The digits that are written are the significant ones. -/
theorem value_roundTo {k : ℕ} (hk : 0 < k) (h : 0 < b.mantissa) :
    (roundTo k b).value = significant k b.value := by
  set p := decimalPlace k b.value with hp
  have hround : roundTo k b =
      let c := nearestEven (b.inUnits p).1 (b.inUnits p).2
      if c = 10^k then ⟨10^(k-1),p+1⟩ else ⟨c,p⟩ := by
    rw [hp,← place_eq k h]
    rfl
  rw [hround,nearestEven_eq _ (Binary.inUnits_pos h p),Binary.inUnits_div,
    significant_of_pos (Binary.value_pos h),← hp]
  simp only
  split
  · rename_i hcarry
    rw [hcarry,Decimal.value,ten_zpow_add,zpow_one]
    conv_rhs => rw [← Nat.sub_add_cancel hk,pow_succ]
    push_cast
    ring
  · rfl

end Magnitudes

end Number
end NumericWorkbench
