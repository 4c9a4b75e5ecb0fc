import NumericWorkbench.Proofs.Number.Rounded
/-! The operations of the floating-point model on finite numbers: the exact result, rounded to the
grid. The order is that of the values. -/
namespace NumericWorkbench
namespace Number
open Float.Model Float.Model.UnpackedFloat

theorem abs_withSign (s : Sign) (x : ℚ) : |withSign s x| = |x| := by
  cases s with
  | positive => rfl
  | negative => exact abs_neg x

theorem withSign_apply (s : Sign) (m : ℕ) : (s.apply m : ℚ) = withSign s m := by
  cases s <;> simp [Sign.apply,withSign]

theorem withSign_mul (s t : Sign) (x y : ℚ) :
    withSign (s*t) (x*y) = withSign s x*withSign t y := by
  cases s <;> cases t
  case negative.negative => exact (neg_mul_neg x y).symm
  case negative.positive => exact (neg_mul x y).symm
  case positive.negative => exact (mul_neg x y).symm
  case positive.positive => rfl

theorem withSign_div (s t : Sign) (x y : ℚ) :
    withSign (s/t) (x/y) = withSign s x/withSign t y := by
  cases s <;> cases t
  case negative.negative => exact (neg_div_neg_eq x y).symm
  case negative.positive => exact (neg_div y x).symm
  case positive.negative => exact (div_neg x).symm
  case positive.positive => rfl

theorem Canonical.isGrid {u : UnpackedFloat} (h : Canonical u) : IsGrid (valueOf u) := by
  cases h with
  | zero s => exact ⟨0,0,by norm_num,by norm_num,by simp [valueOf]⟩
  | @finite s m e hm hlt hle =>
    refine ⟨m,e,hlt,hle,?_⟩
    rw [valueOf_finite,abs_withSign,abs_of_nonneg]
    exact mul_nonneg (Nat.cast_nonneg m) (two_zpow_pos e).le

theorem Canonical.isRounded {u : UnpackedFloat} (h : Canonical u) : IsRounded u (valueOf u) :=
  ⟨h,h.isGrid.nearest_eq.symm⟩

theorem isRounded_zero (s : Sign) : IsRounded (.zero s) 0 := ⟨.zero s,nearest_zero.symm⟩

section Addition

theorem decreaseExponent_mul_two_zpow (m : ℕ) {e t : ℤ} (h : t ≤ e) :
    ((decreaseExponent m e t).1 : ℚ)*2^t = m*2^e := by
  have hpow : (2 : ℚ)^e = 2^(e-t).toNat*2^t := by
    rw [← zpow_natCast,← two_zpow_add]
    congr 1
    omega
  rw [decreaseExponent,hpow]
  push_cast [Nat.shiftLeft_eq]
  ring

theorem isRounded_round (s : Sign) {m : ℕ} (hm : 0 < m) (e : ℤ) :
    IsRounded (round .binary64 s m e) (withSign s (m*2^e)) := by
  have htarget := targetExponent_eq m e
  set t := Format.binary64.targetExponent (totalExponent m e) with ht
  have hlog : 2^m.log2 ≤ m := Nat.log2_self_le hm.ne'
  rw [UnpackedFloat.round]
  simp only [← ht]
  rcases le_or_gt e t with hle | hlt
  · have hshift : (e-t).toNat = 0 := by omega
    rw [decreaseExponent,hshift,Nat.shiftLeft_zero,Nat.cast_zero,sub_zero]
    refine isRounded_roundWithAccuracy s (Nat.cast_pos.mpr hm) (locates_exact m) ?_
    rcases le_or_gt 52 m.log2 with hdigits | hdigits
    · exact .inl ((Nat.pow_le_pow_right two_pos hdigits).trans hlog)
    · exact .inr (by omega)
  · have hexponent : (decreaseExponent m e t).2 = t := by
      rw [decreaseExponent]
      omega
    have hmantissa : (decreaseExponent m e t).1 = m*2^(e-t).toNat := Nat.shiftLeft_eq _ _
    have hpos : 0 < (decreaseExponent m e t).1 := by
      rw [hmantissa]
      positivity
    rw [hexponent,← decreaseExponent_mul_two_zpow m hlt.le]
    refine isRounded_roundWithAccuracy s (Nat.cast_pos.mpr hpos) (locates_exact _) ?_
    rcases le_or_gt t (-1074) with hmin | hmin
    · exact .inr hmin
    · refine .inl ?_
      rw [hmantissa]
      calc 2^52 = 2^m.log2*2^(e-t).toNat := by
            rw [← pow_add]
            congr 1
            omega
        _ ≤ m*2^(e-t).toNat := Nat.mul_le_mul_right _ hlog

theorem isRounded_normalize (m e : ℤ) (s : Sign) :
    IsRounded (normalize .binary64 m e s) (m*2^e) := by
  rw [UnpackedFloat.normalize.eq_def]
  rcases lt_trichotomy m 0 with hm | rfl | hm
  · rw [Int.compare_eq_lt.mpr hm]
    have h := isRounded_round .negative (m := (-m).toNat) (by omega) e
    have hcast : ((-m).toNat : ℚ) = -m := by
      exact_mod_cast Int.toNat_of_nonneg (neg_nonneg.mpr hm.le)
    rwa [withSign,hcast,neg_mul,neg_neg] at h
  · rw [Int.cast_zero,zero_mul]
    exact isRounded_zero s
  · rw [Int.compare_eq_gt.mpr hm]
    have h := isRounded_round .positive (m := m.toNat) (by omega) e
    have hcast : (m.toNat : ℚ) = m := by exact_mod_cast Int.toNat_of_nonneg hm.le
    rwa [withSign,hcast] at h

theorem apply_decreaseExponent (s : Sign) (m : ℕ) {e t : ℤ} (h : t ≤ e) :
    (s.apply (decreaseExponent m e t).1 : ℚ)*2^t = withSign s (m*2^e) := by
  rw [withSign_apply,← decreaseExponent_mul_two_zpow m h]
  cases s with
  | positive => rfl
  | negative => exact neg_mul _ _

theorem isRounded_add {u v : UnpackedFloat} (hu : Canonical u) (hv : Canonical v) :
    IsRounded (u.add .binary64 v) (valueOf u+valueOf v) := by
  cases hu with
  | zero s =>
    rw [show valueOf (.zero s) = 0 from rfl,zero_add]
    cases hv with
    | zero t =>
      rw [UnpackedFloat.add]
      split
      · exact isRounded_zero s
      · exact isRounded_zero .positive
    | finite hlt hle hdigits => exact Canonical.isRounded (.finite hlt hle hdigits)
  | @finite s m e hm hlt hle hdigits =>
    cases hv with
    | zero t =>
      rw [show valueOf (.zero t) = 0 from rfl,add_zero]
      exact Canonical.isRounded (.finite hlt hle hdigits)
    | @finite t n d hn hlt' hle' hdigits' =>
      have h := isRounded_normalize (s.apply (decreaseExponent m e (min e d)).1+
        t.apply (decreaseExponent n d (min e d)).1) (min e d) .positive
      rw [Int.cast_add,add_mul,apply_decreaseExponent s m (min_le_left e d),
        apply_decreaseExponent t n (min_le_right e d)] at h
      rw [valueOf_finite,valueOf_finite]
      exact h

end Addition

section Multiplication

/-- Mantissas of any length are multiplied exactly, if the product has enough digits to be rounded. -/
theorem isRounded_mul_finite (s t : Sign) {m n : ℕ} {e d : ℤ} (hm : 0 < m) (hn : 0 < n)
    (hbits : 2^52 ≤ m*n ∨ e+d ≤ -1074) :
    IsRounded ((UnpackedFloat.finite s m e hm).mul .binary64 (.finite t n d hn))
      (withSign s (m*2^e)*withSign t (n*2^d)) := by
  have hpos : 0 < m*n := Nat.mul_pos hm hn
  have h := isRounded_roundWithAccuracy (s*t) (Nat.cast_pos.mpr hpos) (locates_exact _) hbits
  rw [Nat.cast_mul,two_zpow_add,mul_mul_mul_comm,withSign_mul] at h
  exact h

theorem isRounded_mul {u v : UnpackedFloat} (hu : Canonical u) (hv : Canonical v) :
    IsRounded (u.mul .binary64 v) (valueOf u*valueOf v) := by
  cases hu with
  | zero s =>
    rw [show valueOf (.zero s) = 0 from rfl,zero_mul]
    cases hv with
    | zero t => exact isRounded_zero _
    | finite hlt hle hdigits => exact isRounded_zero _
  | @finite s m e hm hlt hle hdigits =>
    cases hv with
    | zero t =>
      rw [show valueOf (.zero t) = 0 from rfl,mul_zero]
      exact isRounded_zero _
    | @finite t n d hn hlt' hle' hdigits' =>
      have hbits : 2^52 ≤ m*n ∨ e+d ≤ -1074 := by
        rcases hdigits with hm' | rfl
        · exact .inl (hm'.trans (Nat.le_mul_of_pos_right m hn))
        · rcases hdigits' with hn' | rfl
          · exact .inl (hn'.trans (Nat.le_mul_of_pos_left n hm))
          · exact .inr (by norm_num)
      rw [valueOf_finite,valueOf_finite]
      exact isRounded_mul_finite s t hm hn hbits

end Multiplication

section Division

/-- The bits of a whole part and a fraction, which is compared with a half. -/
theorem locates_inexact (m : ℕ) {x : ℚ} (h : 0 < x) (hlt : x < 1) :
    Locates (.ofMantissaAndAccuracy m (.inexact (compare x (1/2)))) (m+x) := by
  rcases lt_trichotomy x (1/2) with hhalf | rfl | hhalf
  · rw [compare_lt_iff_lt.mpr hhalf]
    change (m : ℚ) < m+x ∧ m+x < m+1/2
    constructor <;> linarith
  · rw [compare_eq_iff_eq.mpr rfl]
    exact rfl
  · rw [compare_gt_iff_gt.mpr hhalf]
    change (m : ℚ)+1/2 < m+x ∧ m+x < m+1
    constructor <;> linarith

theorem compare_half (r : ℕ) {den : ℕ} (hden : 0 < den) :
    compare (2*r) den = compare ((r : ℚ)/den) (1/2) := by
  have hden' : (0 : ℚ) < den := Nat.cast_pos.mpr hden
  rcases lt_trichotomy (2*r) den with h | h | h
  · rw [Nat.compare_eq_lt.mpr h,eq_comm,compare_lt_iff_lt,div_lt_div_iff₀ hden' two_pos]
    exact_mod_cast (by omega : r*2 < 1*den)
  · rw [Nat.compare_eq_eq.mpr h,eq_comm,compare_eq_iff_eq,div_eq_div_iff hden'.ne' two_ne_zero]
    exact_mod_cast (by omega : r*2 = 1*den)
  · rw [Nat.compare_eq_gt.mpr h,eq_comm,compare_gt_iff_gt,div_lt_div_iff₀ two_pos hden']
    exact_mod_cast (by omega : 1*den < r*2)

theorem locates_fraction (num : ℕ) {den : ℕ} (hden : 0 < den) :
    Locates (.ofMantissaAndAccuracy (num/den) (accuracyOfFraction (num%den) den))
      ((num : ℚ)/den) := by
  have hden' : (0 : ℚ) < den := Nat.cast_pos.mpr hden
  have hquotient : (num : ℚ)/den = (num/den : ℕ)+(num%den : ℕ)/den := by
    rw [div_eq_iff hden'.ne',add_mul,div_mul_cancel₀ _ hden'.ne',mul_comm]
    exact_mod_cast (Nat.div_add_mod num den).symm
  rw [hquotient,accuracyOfFraction]
  split
  · rename_i hzero
    rw [hzero,Nat.cast_zero,zero_div,add_zero]
    exact locates_exact _
  · rename_i hzero
    rw [compare_half _ hden]
    refine locates_inexact _ (div_pos (Nat.cast_pos.mpr (Nat.pos_of_ne_zero hzero)) hden') ?_
    exact (div_lt_one hden').mpr (Nat.cast_lt.mpr (Nat.mod_lt num hden))

theorem divCore_digits {m n : ℕ} (hm : 0 < m) (hn : 0 < n) (e d : ℤ) :
    2^52 ≤ (divCore .binary64 m e n d).1 ∨ (divCore .binary64 m e n d).2.1 ≤ -1074 := by
  have htarget : Format.binary64.targetExponent (totalExponent m e-totalExponent n d) =
      max ((m.log2 : ℤ)+e-(n.log2+d)-53) (-1074) := by
    have hmin : Format.binary64.minExponent = -1074 := rfl
    have hbits : Format.binary64.mantissaBits = 53 := rfl
    rw [Format.targetExponent,totalExponent,totalExponent,hmin,hbits]
    congr 1
    push_cast
    ring
  simp only [divCore,htarget]
  set t := min (e-d) (max ((m.log2 : ℤ)+e-(n.log2+d)-53) (-1074)) with ht
  rcases le_or_gt t (-1074) with hmin | hmin
  · exact .inr hmin
  · refine .inl ((Nat.le_div_iff_mul_le hn).mpr ?_)
    have hlow : 2^m.log2 ≤ m := Nat.log2_self_le hm.ne'
    have hhigh : n ≤ 2^(n.log2+1) := Nat.lt_log2_self.le
    calc 2^52*n ≤ 2^52*2^(n.log2+1) := Nat.mul_le_mul_left _ hhigh
      _ = 2^(52+(n.log2+1)) := (pow_add 2 _ _).symm
      _ ≤ 2^(m.log2+(e-d-t).toNat) := Nat.pow_le_pow_right two_pos (by omega)
      _ = 2^m.log2*2^(e-d-t).toNat := pow_add 2 _ _
      _ ≤ m*2^(e-d-t).toNat := Nat.mul_le_mul_right _ hlow
      _ = m <<< (e-d-t).toNat := (Nat.shiftLeft_eq _ _).symm

theorem isRounded_div_finite (s t : Sign) {m n : ℕ} (hm : 0 < m) (hn : 0 < n) (e d : ℤ) :
    IsRounded ((UnpackedFloat.finite s m e hm).div .binary64 (.finite t n d hn))
      (withSign s (m*2^e)/withSign t (n*2^d)) := by
  have hbits := divCore_digits hm hn e d
  simp only [divCore] at hbits
  rw [UnpackedFloat.div]
  simp only [divCore]
  set target := min (e-d) (Format.binary64.targetExponent
    (totalExponent m e-totalExponent n d)) with ht
  set shifted := m <<< (e-d-target).toNat with hshifted
  have hn' : (0 : ℚ) < n := Nat.cast_pos.mpr hn
  have hshift : (shifted : ℚ)*2^target = m*2^(e-d) := by
    have hle : target ≤ e-d := min_le_left _ _
    exact decreaseExponent_mul_two_zpow m hle
  have hpos : 0 < (shifted : ℚ)/n := by
    refine div_pos (Nat.cast_pos.mpr ?_) hn'
    rw [hshifted,Nat.shiftLeft_eq]
    positivity
  have hexact : (shifted : ℚ)/n*2^target = m*2^e/(n*2^d) := by
    rw [div_mul_eq_mul_div,hshift,zpow_sub₀ two_ne_zero,mul_div_assoc',div_div,mul_comm (2^d)]
  have h := isRounded_roundWithAccuracy (s/t) hpos (locates_fraction _ hn) hbits
  rw [hexact,withSign_div] at h
  exact h

theorem isRounded_div {u v : UnpackedFloat} (hu : Canonical u) (hv : Canonical v)
    (hne : valueOf v ≠ 0) : IsRounded (u.div .binary64 v) (valueOf u/valueOf v) := by
  cases hv with
  | zero t => exact absurd rfl hne
  | @finite t n d hn hlt' hle' hdigits' =>
    cases hu with
    | zero s =>
      rw [show valueOf (.zero s) = 0 from rfl,zero_div]
      exact isRounded_zero _
    | @finite s m e hm hlt hle hdigits =>
      rw [valueOf_finite,valueOf_finite]
      exact isRounded_div_finite s t hm hn e d

end Division

section Order

theorem magnitude_lt {m n : ℕ} {e d : ℤ} (hm : m < 2^53) (he : -1074 ≤ e)
    (hn : 2^52 ≤ n ∨ d = -1074) (h : e < d ∨ e = d ∧ m < n) : (m : ℚ)*2^e < n*2^d := by
  rcases h with hlt | ⟨rfl,hlt⟩
  · have hn' : ((2^52 : ℕ) : ℚ) ≤ n := Nat.cast_le.mpr (hn.resolve_right (by omega))
    calc (m : ℚ)*2^e < (2^53 : ℕ)*2^e :=
          mul_lt_mul_of_pos_right (Nat.cast_lt.mpr hm) (two_zpow_pos e)
      _ = (2^52 : ℕ)*2^(1+e) := by
          rw [two_zpow_add]
          push_cast
          ring
      _ ≤ (2^52 : ℕ)*2^d :=
          mul_le_mul_of_nonneg_left (zpow_le_zpow_right₀ one_le_two (by omega)) (by positivity)
      _ ≤ n*2^d := mul_le_mul_of_nonneg_right hn' (two_zpow_pos d).le
  · exact mul_lt_mul_of_pos_right (Nat.cast_lt.mpr hlt) (two_zpow_pos e)

theorem compare_magnitude {m n : ℕ} {e d : ℤ} (hm : m < 2^53) (he : -1074 ≤ e)
    (hm' : 2^52 ≤ m ∨ e = -1074) (hn : n < 2^53) (hd : -1074 ≤ d) (hn' : 2^52 ≤ n ∨ d = -1074) :
    (compare e d).then (compare m n) = compare ((m : ℚ)*2^e) (n*2^d) := by
  rcases lt_trichotomy e d with h | rfl | h
  · rw [compare_lt_iff_lt.mpr (magnitude_lt hm he hn' (.inl h)),Int.compare_eq_lt.mpr h]
    rfl
  · rw [Int.compare_eq_eq.mpr rfl,Ordering.eq_then]
    rcases lt_trichotomy m n with h | rfl | h
    · rw [compare_lt_iff_lt.mpr (magnitude_lt hm he hn' (.inr ⟨rfl,h⟩)),Nat.compare_eq_lt.mpr h]
    · rw [compare_eq_iff_eq.mpr (Eq.refl ((m : ℚ)*2^e)),Nat.compare_eq_eq.mpr rfl]
    · rw [compare_gt_iff_gt.mpr (magnitude_lt hn he hm' (.inr ⟨rfl,h⟩)),Nat.compare_eq_gt.mpr h]
  · rw [compare_gt_iff_gt.mpr (magnitude_lt hn hd hm' (.inl h)),Int.compare_eq_gt.mpr h]
    rfl

theorem compare_neg_neg (x y : ℚ) : compare (-x) (-y) = (compare x y).swap := by
  rcases lt_trichotomy x y with h | rfl | h
  · rw [compare_lt_iff_lt.mpr h,compare_gt_iff_gt.mpr (neg_lt_neg h)]
    rfl
  · rw [compare_eq_iff_eq.mpr rfl,compare_eq_iff_eq.mpr rfl]
    rfl
  · rw [compare_gt_iff_gt.mpr h,compare_lt_iff_lt.mpr (neg_lt_neg h)]
    rfl

theorem compare_eq {u v : UnpackedFloat} (hu : Canonical u) (hv : Canonical v) :
    u.compare v = some (compare (valueOf u) (valueOf v)) := by
  have positive {m : ℕ} (hm : 0 < m) (e : ℤ) : (0 : ℚ) < m*2^e :=
    mul_pos (Nat.cast_pos.mpr hm) (two_zpow_pos e)
  cases hu with
  | zero s =>
    cases hv with
    | zero t => exact congrArg some (compare_eq_iff_eq.mpr rfl).symm
    | @finite t n d hn hlt' hle' hdigits' =>
      cases t with
      | negative =>
        exact congrArg some (compare_gt_iff_gt.mpr (neg_lt_zero.mpr (positive hn d))).symm
      | positive => exact congrArg some (compare_lt_iff_lt.mpr (positive hn d)).symm
  | @finite s m e hm hlt hle hdigits =>
    cases hv with
    | zero t =>
      cases s with
      | negative =>
        exact congrArg some (compare_lt_iff_lt.mpr (neg_lt_zero.mpr (positive hm e))).symm
      | positive => exact congrArg some (compare_gt_iff_gt.mpr (positive hm e)).symm
    | @finite t n d hn hlt' hle' hdigits' =>
      have hcompare := compare_magnitude hlt hle hdigits hlt' hle' hdigits'
      cases s <;> cases t
      case negative.negative =>
        rw [UnpackedFloat.compare,hcompare,← compare_neg_neg]
        rfl
      case negative.positive =>
        exact congrArg some (compare_lt_iff_lt.mpr
          ((neg_lt_zero.mpr (positive hm e)).trans (positive hn d))).symm
      case positive.negative =>
        exact congrArg some (compare_gt_iff_gt.mpr
          ((neg_lt_zero.mpr (positive hn d)).trans (positive hm e))).symm
      case positive.positive =>
        rw [UnpackedFloat.compare,hcompare]
        rfl

end Order

end Number
end NumericWorkbench
