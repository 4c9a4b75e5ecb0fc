import NumericWorkbench.Number.Literal
import NumericWorkbench.Proofs.Number.Shape
/-! The numbers that are read: digits times a power of ten give the nearest number of the grid, or an
infinity where that is too large. -/
namespace NumericWorkbench
namespace Number
open Float.Model Float.Model.UnpackedFloat

/-- What a magnitude with a sign is rounded to. -/
structure Rounds (z : Float) (negative : Bool) (x : ℚ) : Prop where
  isFinite_iff : z.isFinite = true ↔ nearest x < 2^(1024 : ℤ)
  value_eq : z.isFinite = true → value z = signed negative (nearest x)
  signBit_eq : z.isFinite = true → signBit z = negative

theorem Rounds.unique {y z : Float} {negative : Bool} {x : ℚ} (hy : Rounds y negative x) (hz : Rounds z negative x)
    (h : z.isFinite = true) : y = z := by
  have hfinite := hy.isFinite_iff.mpr (hz.isFinite_iff.mp h)
  refine eq_of_value hfinite h ?_ ?_
  · rw [hy.value_eq hfinite,hz.value_eq h]
  · rw [hy.signBit_eq hfinite,hz.signBit_eq h]

section Signs
variable {u v : UnpackedFloat} {z : Float} {x : ℚ}

theorem isNegative_roundWithAccuracy (s : Sign) (m : ℕ) (e : ℤ) (accuracy : Accuracy) :
    isNegative (roundWithAccuracy .binary64 s m e accuracy) = (s == .negative) := by
  simp only [roundWithAccuracy]
  split <;> rfl

theorem isNegative_mul (hu : Canonical u) (hv : Canonical v) :
    isNegative (u.mul .binary64 v) = (isNegative u ^^ isNegative v) := by
  cases hu with
  | zero s => cases hv with | zero t | @finite t => cases s <;> cases t <;> rfl
  | @finite s =>
    cases hv with
    | zero t => cases s <;> cases t <;> rfl
    | @finite t =>
      rw [UnpackedFloat.mul,isNegative_roundWithAccuracy]
      cases s <;> cases t <;> rfl

theorem isNegative_div (hu : Canonical u) (hv : Canonical v) (hne : valueOf v ≠ 0) :
    isNegative (u.div .binary64 v) = (isNegative u ^^ isNegative v) := by
  cases hv with
  | zero t => exact absurd rfl hne
  | @finite t =>
    cases hu with
    | zero s => cases s <;> cases t <;> rfl
    | @finite s =>
      rw [UnpackedFloat.div,isNegative_roundWithAccuracy]
      cases s <;> cases t <;> rfl

theorem IsRounded.rounds (h : IsRounded u x) (hx : 0 ≤ x) (hsign : isNegative u = false) :
    Rounds (.ofModel (.pack u)) false x := by
  have hnearest := h.isNearest
  refine ⟨?_,?_,fun hfinite => ?_⟩
  · rw [hnearest.isFinite_iff,abs_of_nonneg (nearest_nonneg hx)]
  · rw [signed_false]
    exact hnearest.value_eq
  · rw [signBit_eq hfinite,← hsign]
    rcases parts_pack h.canonical with ⟨hparts,-⟩ | ⟨s,y,hparts,-,-⟩
    · rw [hparts]
    · rw [isFinite_eq_parts,hparts] at hfinite
      cases hfinite

theorem isFinite_neg (z : Float) : (-z).isFinite = z.isFinite := by
  refine Bool.eq_iff_iff.mpr ⟨isFinite_of_neg,fun h => isFinite_of_neg ?_⟩
  rwa [neg_neg h]

theorem Canonical.neg (h : Canonical u) : Canonical u.neg ∧ valueOf u.neg = -valueOf u ∧
    isNegative u.neg = !isNegative u := by
  cases h with
  | zero s => exact ⟨.zero _,(neg_zero (G := ℚ)).symm,by cases s <;> rfl⟩
  | @finite s m e hm hlt hle hdigits =>
    refine ⟨.finite hlt hle hdigits,?_,by cases s <;> rfl⟩
    cases s with
    | positive => rfl
    | negative => exact (InvolutiveNeg.neg_neg ((m : ℚ)*2^e)).symm

theorem parts_neg (h : z.isFinite = true) : parts (-z) = (parts z).neg := by
  have hneg : -z = .ofModel (.pack (parts z).neg) := rfl
  rw [hneg]
  rcases parts_pack (canonical_parts h).neg.1 with ⟨hparts,-⟩ | ⟨s,y,hparts,-,-⟩
  · exact hparts
  · have hfinite : (-z).isFinite = true := (isFinite_neg z).trans h
    rw [hneg,isFinite_eq_parts,hparts] at hfinite
    cases hfinite

theorem Rounds.neg (h : Rounds z false x) : Rounds (-z) true x := by
  refine ⟨?_,?_,?_⟩ <;> rw [isFinite_neg]
  · exact h.isFinite_iff
  · intro hfinite
    have hvalue : value z = nearest x := h.value_eq hfinite
    rw [value,parts_neg hfinite,(canonical_parts hfinite).neg.2.1,← value,hvalue,signed_true]
  · intro hfinite
    have hsign := h.signBit_eq hfinite
    rw [Number.signBit_eq hfinite] at hsign
    rw [Number.signBit_eq ((isFinite_neg z).trans hfinite),parts_neg hfinite,
      (canonical_parts hfinite).neg.2.2,hsign]
    rfl

end Signs

section Whole
variable {m e : ℕ}

theorem isNegative_normalize (m : ℕ) (e : ℤ) :
    isNegative (normalize .binary64 m e .positive) = false := by
  rw [UnpackedFloat.normalize.eq_def]
  split
  · rename_i hlt
    have := Int.compare_eq_lt.mp hlt
    omega
  · rfl
  · exact isNegative_roundWithAccuracy _ _ _ _

theorem isGrid_natCast (h : m < 2^53) : IsGrid m :=
  ⟨m,0,h,by norm_num,by rw [zpow_zero,mul_one,abs_of_nonneg (Nat.cast_nonneg m)]⟩

theorem toFloat_small (h : m < 2^53) : m.toUInt64.toFloat.isFinite = true ∧
    value m.toUInt64.toFloat = m ∧ isNegative (parts m.toUInt64.toFloat) = false := by
  have hmod : m.toUInt64.toNat = m := by
    rw [Nat.toUInt64_eq,UInt64.toNat_ofNat']
    omega
  have hfloat : m.toUInt64.toFloat =
      .ofModel (.pack (normalize .binary64 (m.toUInt64.toNat : ℤ) 0 .positive)) := rfl
  have hgrid := (isGrid_natCast h).nearest_eq
  have hrounded : IsRounded (normalize .binary64 m 0 .positive) m := by
    simpa using isRounded_normalize m 0 .positive
  have hrounds := hrounded.rounds (Nat.cast_nonneg m) (isNegative_normalize m 0)
  rw [← hmod,← hfloat,hmod] at hrounds
  have hfinite : m.toUInt64.toFloat.isFinite = true := by
    rw [hrounds.isFinite_iff,hgrid]
    calc (m : ℚ) < 2^(53 : ℤ) := by exact_mod_cast h
      _ ≤ 2^(1024 : ℤ) := zpow_le_zpow_right₀ one_le_two (by norm_num)
  refine ⟨hfinite,?_,?_⟩
  · rw [hrounds.value_eq hfinite,hgrid,signed_false]
  · rw [← signBit_eq hfinite,hrounds.signBit_eq hfinite]

theorem powerOfTen_small (h : e < Float.exactlyRepresentablePowersOfTen.size) :
    Float.exactlyRepresentablePowersOfTen[e].isFinite = true ∧
      value Float.exactlyRepresentablePowersOfTen[e] = 10^e ∧
      isNegative (parts Float.exactlyRepresentablePowersOfTen[e]) = false := by
  revert e
  decide +kernel

end Whole

section Scaled
variable {m e : ℕ}

/-- Few digits and a small power of ten need one rounding, that of the last operation. -/
theorem rounds_small (hm : m < 2^53) (he : e < Float.exactlyRepresentablePowersOfTen.size) :
    Rounds (m.toUInt64.toFloat*Float.exactlyRepresentablePowersOfTen[e]) false (m*10^e) ∧
      Rounds (m.toUInt64.toFloat/Float.exactlyRepresentablePowersOfTen[e]) false (m/10^e) := by
  obtain ⟨hfinite,hvalue,hsign⟩ := toFloat_small hm
  obtain ⟨hfinite',hvalue',hsign'⟩ := powerOfTen_small he
  have hne : valueOf (parts Float.exactlyRepresentablePowersOfTen[e]) ≠ 0 := by
    rw [← value,hvalue']
    positivity
  have hmul := isRounded_mul (canonical_parts hfinite) (canonical_parts hfinite')
  have hdiv := isRounded_div (canonical_parts hfinite) (canonical_parts hfinite') hne
  rw [← value,← value,hvalue,hvalue'] at hmul hdiv
  constructor
  · refine hmul.rounds (by positivity) ?_
    rw [isNegative_mul (canonical_parts hfinite) (canonical_parts hfinite'),hsign,hsign']
    rfl
  · refine hdiv.rounds (by positivity) ?_
    rw [isNegative_div (canonical_parts hfinite) (canonical_parts hfinite') hne,hsign,hsign']
    rfl

theorem two_zpow_le_ten_zpow {e : ℤ} (h : 0 ≤ e) : (2 : ℚ)^e ≤ 10^e :=
  zpow_le_zpow_left₀ h two_pos.le (by norm_num)

theorem ten_zpow_le_two_zpow {e : ℤ} (h : e ≤ 0) : (10 : ℚ)^e ≤ 2^e := by
  have hle := two_zpow_le_ten_zpow (neg_nonneg.mpr h)
  rw [zpow_neg,zpow_neg] at hle
  exact (inv_le_inv₀ (two_zpow_pos e) (ten_zpow_pos e)).mp hle

theorem rounds_infinity {x : ℚ} (h : 2^(1024 : ℤ) ≤ x) :
    Rounds (.ofModel (.pack (.infinity .positive))) false x := by
  have hinfinite : Float.isFinite (.ofModel (.pack (.infinity .positive))) = false := by decide
  have hle : 2^(1024 : ℤ) ≤ nearest x := (isGrid_two_zpow (by norm_num)).le_nearest h
  refine ⟨?_,?_,?_⟩ <;> rw [hinfinite]
  · exact iff_of_false Bool.false_ne_true hle.not_gt
  · exact nofun
  · exact nofun

theorem isRounded_tiny (s : Sign) {x : ℚ} (hx : 0 < x) (h : x ≤ 2^(-1075 : ℤ)) :
    IsRounded (.zero s) x := by
  have hnot : ¬0 < nearest x := by
    rw [nearest_pos_iff hx]
    exact h.not_gt
  exact ⟨.zero s,le_antisymm (nearest_nonneg hx.le) (not_lt.mp hnot)⟩

section Powers
variable {m : ℕ}

theorem isRounded_times (hm : 0 < m) (n : ℕ) (hshift : 0 < m <<< 53) (hpower : 0 < 10^n) :
    IsRounded ((UnpackedFloat.finite .positive (m <<< 53) (-53) hshift).mul .binary64
      (.finite .positive (10^n) 0 hpower)) (m*10^n) := by
  have hdigits : 2^52 ≤ m <<< 53*10^n := by
    rw [Nat.shiftLeft_eq]
    calc 2^52 ≤ 1*2^53*1 := by norm_num
      _ ≤ m*2^53*10^n := Nat.mul_le_mul (Nat.mul_le_mul_right _ hm) hpower
  have h := isRounded_mul_finite .positive .positive (e := -53) (d := 0) hshift hpower (.inl hdigits)
  have hvalue : ((m <<< 53 : ℕ) : ℚ)*2^(-53 : ℤ) = m := by
    rw [Nat.shiftLeft_eq,Nat.cast_mul,Nat.cast_pow,Nat.cast_ofNat,zpow_neg,← zpow_natCast,mul_assoc,
      Nat.cast_ofNat,mul_inv_cancel₀ (two_zpow_pos 53).ne',mul_one]
  rw [withSign,withSign,hvalue,zpow_zero,mul_one,Nat.cast_pow,Nat.cast_ofNat] at h
  exact h

theorem isRounded_over (hm : 0 < m) (n : ℕ) (hpower : 0 < 10^n) :
    IsRounded ((UnpackedFloat.finite .positive m 0 hm).div .binary64
      (.finite .positive (10^n) 0 hpower)) (m/10^n) := by
  have h := isRounded_div_finite .positive .positive hm hpower 0 0
  rw [withSign,withSign,zpow_zero,mul_one,mul_one,Nat.cast_pow,Nat.cast_ofNat] at h
  exact h

end Powers

theorem rounds_ofScientific (m : ℕ) (e : ℤ) :
    Rounds (.ofModel (Float.Model.ofScientific m e)) false (m*10^e) := by
  have hmodel : Float.Model.ofScientific m e =
      .pack (UnpackedFloat.ofScientific .binary64 m e) := rfl
  have hbits : Format.binary64.exponentBits = 11 := rfl
  have hnonneg : (0 : ℚ) ≤ m*10^e := mul_nonneg (Nat.cast_nonneg m) (ten_zpow_pos e).le
  rw [hmodel,UnpackedFloat.ofScientific,hbits]
  split_ifs with hm hlarge hsmall hexponent
  · rw [hm,Nat.cast_zero,zero_mul]
    exact (isRounded_zero .positive).rounds le_rfl rfl
  · have hone : (1 : ℚ) ≤ m := Nat.one_le_cast.mpr (Nat.pos_of_ne_zero hm)
    refine rounds_infinity ?_
    calc (2 : ℚ)^(1024 : ℤ) ≤ 2^e := zpow_le_zpow_right₀ one_le_two (by omega)
      _ ≤ 10^e := two_zpow_le_ten_zpow (by omega)
      _ ≤ m*10^e := le_mul_of_one_le_left (ten_zpow_pos e).le hone
  · have hpos : (0 : ℚ) < m*10^e :=
      mul_pos (Nat.cast_pos.mpr (Nat.pos_of_ne_zero hm)) (ten_zpow_pos e)
    have hlog : (m : ℚ) ≤ 2^((m.log2 : ℤ)+1) := by exact_mod_cast Nat.lt_log2_self.le
    refine (isRounded_tiny .positive hpos ?_).rounds hnonneg rfl
    calc (m : ℚ)*10^e ≤ 2^((m.log2 : ℤ)+1)*2^e :=
          mul_le_mul hlog (ten_zpow_le_two_zpow (by omega)) (ten_zpow_pos e).le (two_zpow_pos _).le
      _ = 2^((m.log2 : ℤ)+1+e) := (two_zpow_add _ e).symm
      _ ≤ 2^(-1075 : ℤ) := zpow_le_zpow_right₀ one_le_two (by omega)
  · have hpower : (10 : ℚ)^e = 10^e.toNat := by
      rw [← zpow_natCast,Int.toNat_of_nonneg hexponent]
    rw [hpower] at hnonneg ⊢
    refine IsRounded.rounds ?_ hnonneg (isNegative_roundWithAccuracy _ _ _ _)
    exact isRounded_times (Nat.pos_of_ne_zero hm) e.toNat _ _
  · have hpower : (m : ℚ)*10^e = m/10^(-e).toNat := by
      rw [← zpow_natCast,Int.toNat_of_nonneg (by omega),zpow_neg,div_inv_eq_mul]
    rw [hpower] at hnonneg ⊢
    refine IsRounded.rounds ?_ hnonneg (isNegative_roundWithAccuracy _ _ _ _)
    exact isRounded_over (Nat.pos_of_ne_zero hm) (-e).toNat _

/-- Digits times a power of ten are read as the nearest number. -/
theorem rounds_scaled (m : ℕ) (e : ℤ) : Rounds (scaled m e) false (m*10^e) := by
  have hscaled : scaled m e = Float.ofScientific m (e < 0) e.natAbs := rfl
  have hsize : Float.exactlyRepresentablePowersOfTen.size = 23 := rfl
  rw [hscaled,Float.ofScientific]
  rcases lt_or_ge e 0 with hneg | hnonneg
  · obtain ⟨n,hn⟩ := Int.eq_ofNat_of_zero_le (a := -e) (by omega)
    obtain rfl : e = -n := by omega
    have hpower : (10 : ℚ)^(-(n : ℤ)) = (10^n)⁻¹ := by rw [zpow_neg,zpow_natCast]
    simp only [hneg,decide_true,if_true,Int.natAbs_neg,Int.natAbs_natCast]
    split
    · rename_i hsmall
      rw [hpower,← div_eq_mul_inv]
      exact (rounds_small hsmall.1 (by omega)).2
    · rw [Int.negOfNat_eq]
      exact rounds_ofScientific m (-n)
  · obtain ⟨n,rfl⟩ := Int.eq_ofNat_of_zero_le hnonneg
    simp only [not_lt.mpr hnonneg,decide_false,Int.natAbs_natCast]
    split
    · rename_i hsmall
      rw [zpow_natCast]
      exact (rounds_small hsmall.1 (by omega)).1
    · exact rounds_ofScientific m n

end Scaled

end Number
end NumericWorkbench
