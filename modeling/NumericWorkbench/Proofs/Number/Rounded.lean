import NumericWorkbench.Proofs.Number.Nearest
/-! What the model of floating-point numbers does when it rounds: its shifts, with a round bit and a
sticky bit, lead to the nearest number of the grid. -/
namespace NumericWorkbench
namespace Number
open Float.Model Float.Model.UnpackedFloat

/-- Where a number lies if its whole part and the two bits are these. -/
def Locates (em : ExtendedMantissa) (x : ℚ) : Prop :=
  match em.roundBit,em.stickyBit with
  | false,false => x = em.mantissa
  | false,true => em.mantissa < x ∧ x < em.mantissa+1/2
  | true,false => x = em.mantissa+1/2
  | true,true => em.mantissa+1/2 < x ∧ x < em.mantissa+1

section Locates
variable {em : ExtendedMantissa} {x : ℚ}

theorem Locates.bounds (h : Locates em x) : (em.mantissa : ℚ) ≤ x ∧ x < em.mantissa+1 := by
  obtain ⟨m,round,sticky⟩ := em
  cases round <;> cases sticky <;> simp only [Locates] at h <;> constructor <;> linarith

theorem Locates.floor_eq (h : Locates em x) : ⌊x⌋₊ = em.mantissa := by
  obtain ⟨hle,hlt⟩ := h.bounds
  exact (Nat.floor_eq_iff ((Nat.cast_nonneg _).trans hle)).mpr ⟨hle,hlt⟩

theorem Locates.roundedMantissa_eq (h : Locates em x) : em.roundedMantissa = toEven x := by
  have hfloor := h.floor_eq
  rw [toEven,hfloor]
  obtain ⟨m,round,sticky⟩ := em
  cases round <;> cases sticky <;> simp only [Locates] at h <;>
    simp only [ExtendedMantissa.roundedMantissa,ExtendedMantissa.accuracy,
      Accuracy.roundToNearestEven]
  · rw [if_pos (by linarith)]
  · rw [if_pos h.2]
  · rw [if_neg (by linarith),if_neg (by linarith)]
  · rw [if_neg (by linarith),if_pos h.1]

theorem shiftRightOne_eq (m : ℕ) (round sticky : Bool) :
    ExtendedMantissa.shiftRightOne ⟨m,round,sticky⟩ = ⟨m/2,m%2 != 0,round || sticky⟩ := rfl

theorem Locates.shiftRightOne (h : Locates em x) : Locates em.shiftRightOne (x/2) := by
  obtain ⟨m,round,sticky⟩ := em
  have hm : (m : ℚ) = 2*(m/2 : ℕ)+(m%2 : ℕ) := by exact_mod_cast (Nat.div_add_mod m 2).symm
  rw [shiftRightOne_eq]
  rcases Nat.mod_two_eq_zero_or_one m with hmod | hmod
  all_goals
    rw [hmod] at hm ⊢
    push_cast at hm
    cases round <;> cases sticky <;> simp only [Locates] at h
  case inl.false.false | inr.false.false => change _ = _; linarith
  all_goals
    change _ ∧ _
    constructor <;> linarith

theorem Locates.shiftRight (h : Locates em x) (n : ℕ) : Locates (em >>> n) (x/2^n) := by
  change Locates (n.repeat ExtendedMantissa.shiftRightOne em) (x/2^n)
  induction n with
  | zero => simpa [Nat.repeat] using h
  | succ n ih =>
    rw [pow_succ,← div_div]
    exact ih.shiftRightOne

theorem locates_exact (m : ℕ) : Locates (.ofMantissaAndAccuracy m .exact) m := rfl

end Locates

/-- The value of an unpacked number, with nothing said of infinite and undefined ones. -/
def valueOf : UnpackedFloat → ℚ
  | .finite .positive m e _ => m*2^e
  | .finite .negative m e _ => -(m*2^e)
  | _ => 0

def withSign : Sign → ℚ → ℚ
  | .positive,x => x
  | .negative,x => -x

theorem valueOf_finite (s : Sign) (m : ℕ) (e : ℤ) (h : 0 < m) :
    valueOf (.finite s m e h) = withSign s (m*2^e) := by
  cases s <;> rfl

theorem nearest_withSign (s : Sign) (x : ℚ) : nearest (withSign s x) = withSign s (nearest x) := by
  cases s with
  | positive => rfl
  | negative => exact nearest_neg x

/-- The unpacked numbers that are finite and have all digits that the grid gives them. -/
inductive Canonical : UnpackedFloat → Prop
  | zero (s : Sign) : Canonical (.zero s)
  | finite {s : Sign} {m : ℕ} {e : ℤ} {h : 0 < m} : m < 2^53 → -1074 ≤ e →
      (2^52 ≤ m ∨ e = -1074) → Canonical (.finite s m e h)

/-- The result of rounding a number. -/
structure IsRounded (u : UnpackedFloat) (x : ℚ) : Prop where
  canonical : Canonical u
  value : valueOf u = nearest x

theorem targetExponent_eq (m : ℕ) (e : ℤ) :
    Format.binary64.targetExponent (totalExponent m e) = max (m.log2+e-52) (-1074) := by
  have hmin : Format.binary64.minExponent = -1074 := rfl
  have hbits : Format.binary64.mantissaBits = 53 := rfl
  rw [Format.targetExponent,totalExponent,hmin,hbits]
  congr 1
  push_cast
  ring

section Shift
variable {m : ℕ} {x : ℚ}

theorem log_mul_two_zpow (hm : 0 < m) (hle : (m : ℚ) ≤ x) (hlt : x < m+1) (e : ℤ) :
    Int.log 2 (x*2^e) = m.log2+e := by
  have hpos : 0 < x*2^e := mul_pos ((Nat.cast_pos.mpr hm).trans_le hle) (two_zpow_pos e)
  have hlow : (2 : ℚ)^m.log2 ≤ m := by exact_mod_cast Nat.log2_self_le hm.ne'
  have hhigh : (m : ℚ)+1 ≤ 2^(m.log2+1) := by exact_mod_cast Nat.lt_log2_self (n := m)
  apply le_antisymm
  · refine Int.lt_add_one_iff.mp ((Int.lt_zpow_iff_log_lt (by norm_num) hpos).mp ?_)
    have hexp : (m.log2 : ℤ)+e+1 = (m.log2+1 : ℕ)+e := by push_cast; ring
    rw [Nat.cast_ofNat,hexp,two_zpow_add,zpow_natCast]
    exact mul_lt_mul_of_pos_right (hlt.trans_le hhigh) (two_zpow_pos e)
  · refine (Int.zpow_le_iff_le_log (by norm_num) hpos).mp ?_
    rw [Nat.cast_ofNat,two_zpow_add,zpow_natCast]
    exact mul_le_mul_of_nonneg_right (hlow.trans hle) (two_zpow_pos e).le

theorem targetExponent_eq_lastPlace (hx : 0 < x) (hle : (m : ℚ) ≤ x) (hlt : x < m+1) {e : ℤ}
    (hbits : 2^52 ≤ m ∨ e ≤ -1074) :
    Format.binary64.targetExponent (totalExponent m e) = lastPlace (x*2^e) ∧
      e ≤ lastPlace (x*2^e) := by
  rw [targetExponent_eq,lastPlace,abs_of_pos (mul_pos hx (two_zpow_pos e))]
  rcases Nat.eq_zero_or_pos m with rfl | hm
  · have he : e ≤ -1074 := hbits.resolve_left (by norm_num)
    have hlog : Int.log 2 (x*2^e) < 0+e := by
      refine (Int.lt_zpow_iff_log_lt (by norm_num) (mul_pos hx (two_zpow_pos e))).mp ?_
      rw [Nat.cast_ofNat,two_zpow_add,zpow_zero]
      exact mul_lt_mul_of_pos_right (by simpa using hlt) (two_zpow_pos e)
    rw [show Nat.log2 0 = 0 from rfl]
    omega
  · rw [log_mul_two_zpow hm hle hlt]
    refine ⟨rfl,?_⟩
    rcases hbits with hm' | he
    · have hlog : 52 ≤ m.log2 := (Nat.le_log2 hm.ne').mpr hm'
      omega
    · omega

end Shift

theorem shiftToTargetExponent_carry {r : ℕ} {t : ℤ} (hr : r ≤ 2^53) (ht : -1074 ≤ t) :
    shiftToTargetExponent .binary64 r t .exact =
      if r < 2^53 then (⟨r,false,false⟩,t) else (⟨2^52,false,false⟩,t+1) := by
  rw [shiftToTargetExponent,targetExponent_eq]
  split
  · rename_i hlt
    have hlog : r.log2 ≤ 52 := by
      rcases Nat.eq_zero_or_pos r with rfl | hpos
      · decide
      · exact Nat.lt_succ_iff.mp ((Nat.log2_lt hpos.ne').mpr hlt)
    have hshift : (max (r.log2+t-52) (-1074)-t).toNat = 0 := by omega
    simp only [shiftToExponent,hshift,Nat.cast_zero,add_zero]
    rfl
  · obtain rfl : r = 2^53 := by omega
    have hshift : (max ((2^53 : ℕ).log2+t-52) (-1074)-t).toNat = 1 := by
      rw [Nat.log2_two_pow]
      omega
    simp only [shiftToExponent,hshift,Nat.cast_one]
    rfl

/-- The first shift goes to the last place of a number, where its mantissa is rounded. -/
theorem exists_firstShift {m : ℕ} {e : ℤ} {accuracy : Accuracy} {x : ℚ} (hx : 0 < x)
    (h : Locates (.ofMantissaAndAccuracy m accuracy) x) (hbits : 2^52 ≤ m ∨ e ≤ -1074) :
    ∃ em, shiftToTargetExponent .binary64 m e accuracy = (em,lastPlace (x*2^e)) ∧
      em.roundedMantissa = toEven (x*2^e/2^lastPlace (x*2^e)) := by
  have hmantissa : (ExtendedMantissa.ofMantissaAndAccuracy m accuracy).mantissa = m := by
    rcases accuracy with _ | (_ | _ | _) <;> rfl
  have hbounds := h.bounds
  rw [hmantissa] at hbounds
  obtain ⟨htarget,he⟩ := targetExponent_eq_lastPlace hx hbounds.1 hbounds.2 hbits
  set t := lastPlace (x*2^e)
  refine ⟨_,?_,(h.shiftRight (t-e).toNat).roundedMantissa_eq.trans ?_⟩
  · rw [shiftToTargetExponent,htarget,shiftToExponent]
    congr 1
    omega
  · have hpow : (2 : ℚ)^t = 2^(t-e).toNat*2^e := by
      rw [← zpow_natCast,← two_zpow_add]
      congr 1
      omega
    rw [hpow,mul_div_mul_right _ _ (two_zpow_pos e).ne']

theorem canonical_secondShift (s : Sign) {r : ℕ} {t : ℤ} (hr : r ≤ 2^53) (ht : -1074 ≤ t)
    (hdigits : 2^52 ≤ r ∨ t = -1074) :
    let shifted := shiftToTargetExponent .binary64 r t .exact
    let u := if h : shifted.1.mantissa = 0 then .zero s
      else UnpackedFloat.finite s shifted.1.mantissa shifted.2 (Nat.pos_of_ne_zero h)
    Canonical u ∧ valueOf u = withSign s (r*2^t) := by
  simp only [shiftToTargetExponent_carry hr ht]
  by_cases hlt : r < 2^53
  · simp only [if_pos hlt]
    split_ifs with hzero
    · refine ⟨.zero s,?_⟩
      rw [hzero]
      cases s <;> simp [valueOf,withSign]
    · exact ⟨.finite hlt ht hdigits,valueOf_finite _ _ _ _⟩
  · obtain rfl : r = 2^53 := by omega
    simp only [if_neg hlt]
    refine ⟨.finite (by norm_num) (by omega) (.inl le_rfl),?_⟩
    refine (valueOf_finite s (2^52) (t+1) (by norm_num)).trans ?_
    rw [two_zpow_add]
    congr 1
    push_cast
    ring

/-- The rounding of the model, for a number that is known by its whole part and two bits. -/
theorem isRounded_roundWithAccuracy (s : Sign) {m : ℕ} {e : ℤ} {accuracy : Accuracy} {x : ℚ}
    (hx : 0 < x) (h : Locates (.ofMantissaAndAccuracy m accuracy) x)
    (hbits : 2^52 ≤ m ∨ e ≤ -1074) :
    IsRounded (roundWithAccuracy .binary64 s m e accuracy) (withSign s (x*2^e)) := by
  have hX : 0 < x*2^e := mul_pos hx (two_zpow_pos e)
  obtain ⟨em,hshift,hround⟩ := exists_firstShift hx h hbits
  have hpos := two_zpow_pos (lastPlace (x*2^e))
  have hmin : -1074 ≤ lastPlace (x*2^e) := le_max_right _ _
  have hle : em.roundedMantissa ≤ 2^53 := by
    rw [hround]
    refine toEven_le (div_pos hX hpos).le ((div_le_iff₀ hpos).mpr ?_)
    have hlt := lt_two_zpow hX
    rw [two_zpow_add] at hlt
    exact_mod_cast hlt.le
  have hdigits : 2^52 ≤ em.roundedMantissa ∨ lastPlace (x*2^e) = -1074 := by
    rcases hmin.eq_or_lt with heq | hlt
    · exact .inr heq.symm
    · refine .inl (hround ▸ le_toEven ((le_div_iff₀ hpos).mpr ?_))
      have hfull := two_zpow_le hX hlt
      rw [two_zpow_add] at hfull
      exact_mod_cast hfull
  obtain ⟨hcanonical,hvalue⟩ := canonical_secondShift s hle hmin hdigits
  rw [roundWithAccuracy,hshift]
  refine ⟨hcanonical,hvalue.trans ?_⟩
  rw [nearest_withSign,nearest_of_pos hX,hround]

end Number
end NumericWorkbench
