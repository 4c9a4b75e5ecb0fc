import NumericWorkbench.Number.Shortest
import NumericWorkbench.Proofs.Number.Decimal
/-! The shortest decimal is read back as the magnitude that it stands for. What the search compares are
the middles between a magnitude and its neighbours, and with seventeen digits it cannot fail. -/
namespace NumericWorkbench
namespace Number

/-- The way from a magnitude to the middle between it and its lower neighbour. -/
def Binary.gap (b : Binary) : ℚ := if b.leading then 2^b.exponent/4 else 2^b.exponent/2

/-- The numbers that are nearer to a magnitude than to its neighbours. A tie belongs to it if it is
even. -/
def Binary.Covers (b : Binary) (x : ℚ) : Prop :=
  (b.value-b.gap < x ∨ x = b.value-b.gap ∧ b.closed = true) ∧
    (x < b.value+2^b.exponent/2 ∨ x = b.value+2^b.exponent/2 ∧ b.closed = true)

section Comparing
variable {b : Binary} {c : ℕ} {p : ℤ}

theorem compare_of_scaled {m n : ℕ} {x y k : ℚ} (hk : 0 < k) (hm : (m : ℚ) = x*k)
    (hn : (n : ℚ) = y*k) : compare m n = compare x y := by
  rcases lt_trichotomy x y with h | rfl | h
  · have hlt : (m : ℚ) < n := by
      rw [hm,hn]
      exact mul_lt_mul_of_pos_right h hk
    rw [compare_lt_iff_lt.mpr (Nat.cast_lt.mp hlt),compare_lt_iff_lt.mpr h]
  · have heq : (m : ℚ) = n := by rw [hm,hn]
    rw [compare_eq_iff_eq.mpr (Nat.cast_injective heq),compare_eq_iff_eq.mpr rfl]
  · have hgt : (n : ℚ) < m := by
      rw [hm,hn]
      exact mul_lt_mul_of_pos_right h hk
    rw [compare_gt_iff_gt.mpr (Nat.cast_lt.mp hgt),compare_gt_iff_gt.mpr h]

theorem compareDecimal_eq (c : ℕ) (p : ℤ) (n : ℕ) (e : ℤ) :
    compareDecimal c p n e = compare ((c : ℚ)*10^p) (n*2^e) := by
  have hten : (10 : ℚ)^p*10^(-p).toNat = 10^p.toNat := by
    rw [← pow_div_pow (by norm_num) p,div_mul_cancel₀ _ (by positivity)]
  have htwo : (2 : ℚ)^e*2^(-e).toNat = 2^e.toNat := by
    rw [← pow_div_pow two_ne_zero e,div_mul_cancel₀ _ (by positivity)]
  refine compare_of_scaled (k := 10^(-p).toNat*2^(-e).toNat) (by positivity) ?_ ?_
  · change ((c*10^p.toNat*2^(-e).toNat : ℕ) : ℚ) = _
    push_cast
    rw [← hten]
    ring
  · change ((n*2^e.toNat*10^(-p).toNat : ℕ) : ℚ) = _
    push_cast
    rw [← htwo]
    ring

theorem quarter_eq (e : ℤ) : (2 : ℚ)^(e-2) = 2^e/4 := by
  rw [zpow_sub₀ two_ne_zero]
  norm_num

theorem lower_mul (h : 0 < b.mantissa) : (b.lower : ℚ)*2^(b.exponent-2) = b.value-b.gap := by
  rw [quarter_eq,Binary.lower,Binary.gap,Binary.value]
  split
  all_goals
    rw [Nat.cast_sub (by omega)]
    push_cast
    ring

theorem upper_mul (b : Binary) : (b.upper : ℚ)*2^(b.exponent-2) = b.value+2^b.exponent/2 := by
  rw [quarter_eq,Binary.upper,Binary.value]
  push_cast
  ring

theorem readsBack_iff (h : 0 < b.mantissa) : readsBack b c p = true ↔ b.Covers (c*10^p) := by
  rw [readsBack,compareDecimal_eq,compareDecimal_eq,lower_mul h,upper_mul,Binary.Covers]
  simp only [Bool.and_eq_true,Bool.or_eq_true,beq_iff_eq,compare_gt_iff_gt,compare_lt_iff_lt,
    compare_eq_iff_eq]

end Comparing

section Rounding
variable {b : Binary} {x : ℚ}

theorem Binary.gap_bounds (b : Binary) : 0 < b.gap ∧ b.gap ≤ 2^b.exponent/2 := by
  have hu := two_zpow_pos b.exponent
  rw [Binary.gap]
  split <;> constructor <;> linarith

theorem Binary.Covers.abs_sub (h : b.Covers x) :
    |b.value-x| < 2^b.exponent/2 ∨ |b.value-x| = 2^b.exponent/2 ∧ Even b.mantissa := by
  have hu := two_zpow_pos b.exponent
  obtain ⟨hpos,hgap⟩ := b.gap_bounds
  have even (hc : b.closed = true) : Even b.mantissa := Nat.even_iff.mpr (beq_iff_eq.mp hc)
  obtain ⟨hlow,hhigh⟩ := h
  rcases hhigh with hhigh | ⟨rfl,hc⟩
  · rcases hlow with hlow | ⟨rfl,hc⟩
    · exact .inl (abs_lt.mpr ⟨by linarith,by linarith⟩)
    · rw [sub_sub_cancel,abs_of_pos hpos]
      exact hgap.lt_or_eq.imp_right fun heq => ⟨heq,even hc⟩
  · rw [sub_add_cancel_left,abs_neg,abs_of_pos (half_pos hu)]
    exact .inr ⟨rfl,even hc⟩

theorem Binary.Covers.nearest_of_below (h : b.Covers x) (hb : b.IsCanonical)
    (hleading : b.leading = true) (hlt : x < b.value) : nearest x = b.value := by
  obtain ⟨hm,he⟩ := hb.leading_iff.mp hleading
  have hw := two_zpow_pos (b.exponent-1)
  have hunit : (2 : ℚ)^b.exponent = 2*2^(b.exponent-1) := by
    rw [zpow_sub_one₀ two_ne_zero]
    ring
  have hvalue : b.value = (2^53 : ℕ)*2^(b.exponent-1) := by
    rw [Binary.value,hm,hunit]
    push_cast
    ring
  have hgap : b.gap = 2^(b.exponent-1)/2 := by
    rw [Binary.gap,if_pos hleading,hunit]
    ring
  have hlow : b.value-2^(b.exponent-1)/2 ≤ x := by
    rw [← hgap]
    exact h.1.elim le_of_lt fun h => h.1.ge
  have hplace : lastPlace x = b.exponent-1 := by
    refine lastPlace_eq (by omega) ?_ ?_ <;> rw [two_zpow_add]
    · refine le_trans ?_ hlow
      rw [hvalue]
      norm_num
      linarith
    · rw [hvalue] at hlt
      exact_mod_cast hlt
  have hx : 0 < x := by
    rw [hvalue] at hlow
    norm_num at hlow
    linarith
  rw [hvalue] at hlow hlt ⊢
  refine (nearest_eq_iff hx hplace).mpr ?_
  rw [abs_of_pos (by linarith)]
  rcases hlow.lt_or_eq with hlow | hlow
  · exact .inl (by linarith)
  · exact .inr ⟨by linarith,by decide⟩

theorem Binary.Covers.nearest_eq (h : b.Covers x) (hb : b.IsCanonical) (hm : 0 < b.mantissa) :
    nearest x = b.value := by
  have hu := two_zpow_pos b.exponent
  have hone : (1 : ℚ) ≤ b.mantissa := Nat.one_le_cast.mpr hm
  have hmany : (b.mantissa : ℚ)+1 ≤ 2^53 := by exact_mod_cast hb.mantissa_lt
  have hhalf : |b.value-x| ≤ 2^b.exponent/2 := h.abs_sub.elim le_of_lt fun h => h.1.le
  have hbounds := abs_le.mp hhalf
  rw [Binary.value] at hbounds
  have hlow : ((b.mantissa : ℚ)-1/2)*2^b.exponent ≤ x := by linarith
  have hhigh : x ≤ ((b.mantissa : ℚ)+1/2)*2^b.exponent := by linarith
  have hx : 0 < x := (mul_pos (by linarith) hu).trans_le hlow
  have hlt : x < 2^(53+b.exponent) := by
    rw [two_zpow_add]
    refine hhigh.trans_lt (mul_lt_mul_of_pos_right ?_ hu)
    refine lt_of_lt_of_le (by linarith) (hmany.trans ?_)
    norm_cast
  have rounded (hplace : lastPlace x = b.exponent) : nearest x = b.value :=
    (nearest_eq_iff hx hplace).mpr h.abs_sub
  rcases hb.le_exponent.eq_or_lt with he | he
  · rw [← he] at hlt rounded
    exact rounded (lastPlace_of_lt hx hlt)
  have hdigits : 2^52 ≤ b.mantissa := hb.digits.resolve_right he.ne'
  by_cases hbelow : b.leading = true ∧ x < b.value
  · exact h.nearest_of_below hb hbelow.1 hbelow.2
  refine rounded (lastPlace_eq hb.le_exponent ?_ hlt)
  rw [two_zpow_add]
  rcases hdigits.eq_or_lt with heq | hgt
  · have hvalue : b.value ≤ x := not_lt.mp fun hlt => hbelow ⟨hb.leading_iff.mpr ⟨heq.symm,he⟩,hlt⟩
    rw [Binary.value,← heq] at hvalue
    exact_mod_cast hvalue
  · have hmore : (2 : ℚ)^52+1 ≤ b.mantissa := by exact_mod_cast hgt
    have hpower : (2 : ℚ)^(52 : ℤ) = 2^52 := zpow_natCast 2 52
    refine le_trans (mul_le_mul_of_nonneg_right ?_ hu.le) hlow
    linarith

end Rounding

section Search
variable {b : Binary} {k : ℕ} {d : Decimal}

theorem onGrid_eq (k : ℕ) (h : 0 < b.mantissa) : onGrid b k =
    let p := decimalPlace k b.value
    let n := (b.inUnits p).1
    let d := (b.inUnits p).2
    let c := n/d
    match readsBack b c p,readsBack b (c+1) p with
    | true,true => if 2*(n-c*d) < d then some ⟨c,p⟩ else some ⟨c+1,p⟩
    | true,false => some ⟨c,p⟩
    | false,true => some ⟨c+1,p⟩
    | false,false => none := by
  rw [← place_eq k h]
  rfl

theorem covers_of_onGrid (hm : 0 < b.mantissa) (h : onGrid b k = some d) : b.Covers d.value := by
  rw [onGrid_eq k hm] at h
  simp only at h
  split at h
  case h_1 hlow hhigh =>
    split at h
    · cases h
      exact (readsBack_iff hm).mp hlow
    · cases h
      exact (readsBack_iff hm).mp hhigh
  case h_2 hlow _ =>
    cases h
    exact (readsBack_iff hm).mp hlow
  case h_3 _ hhigh =>
    cases h
    exact (readsBack_iff hm).mp hhigh
  case h_4 => cases h

/-- On a grid that is finer than the neighbours of a magnitude, it covers one of the two numbers around
it. -/
theorem Binary.covers_neighbour {y z : ℚ} (hy : y ≤ b.value) (hz : b.value < z)
    (h : z-y < 2*b.gap) : b.Covers y ∨ b.Covers z := by
  have hu := two_zpow_pos b.exponent
  obtain ⟨hpos,hgap⟩ := b.gap_bounds
  by_cases hlow : b.value-b.gap < y
  · exact .inl ⟨.inl hlow,.inl (by linarith)⟩
  · exact .inr ⟨.inl (by linarith),.inl (by linarith)⟩

theorem place_lt_gap (hb : b.IsCanonical) (hm : 0 < b.mantissa) :
    10^decimalPlace 17 b.value < 2*b.gap := by
  have hu := two_zpow_pos b.exponent
  have hlog := ten_zpow_log_le (Binary.value_pos hm)
  rw [ten_zpow_log_eq (k := 17) (by norm_num) (Binary.value_pos hm)] at hlog
  have hspace : (10 : ℚ)^16*10^decimalPlace 17 b.value ≤ b.mantissa*2^b.exponent := by
    exact_mod_cast hlog
  rw [Binary.gap]
  split
  · rename_i hleading
    rw [(hb.leading_iff.mp hleading).1] at hspace
    push_cast at hspace
    linarith
  · have hmany : (b.mantissa : ℚ) ≤ 2^53 := by exact_mod_cast hb.mantissa_lt.le
    have hle : (b.mantissa : ℚ)*2^b.exponent ≤ 2^53*2^b.exponent :=
      mul_le_mul_of_nonneg_right hmany hu.le
    linarith

/-- Seventeen digits always suffice. -/
theorem exists_onGrid (hb : b.IsCanonical) (hm : 0 < b.mantissa) : ∃ d, onGrid b 17 = some d := by
  set p := decimalPlace 17 b.value with hp
  have hs := ten_zpow_pos p
  have hfloor : (b.inUnits p).1/(b.inUnits p).2 = ⌊b.value/10^p⌋₊ := by
    rw [← Binary.inUnits_div,Nat.floor_div_eq_div]
  have hlow : (⌊b.value/10^p⌋₊ : ℚ)*10^p ≤ b.value :=
    (le_div_iff₀ hs).mp (Nat.floor_le (div_pos (Binary.value_pos hm) hs).le)
  have hhigh : b.value < (⌊b.value/10^p⌋₊+1 : ℕ)*10^p := by
    rw [← div_lt_iff₀ hs]
    exact_mod_cast Nat.lt_floor_add_one (b.value/10^p)
  have hcovers := Binary.covers_neighbour hlow hhigh (by
    rw [← sub_mul]
    push_cast
    rw [add_sub_cancel_left,one_mul]
    exact place_lt_gap hb hm)
  rw [← readsBack_iff hm,← readsBack_iff hm,← hfloor] at hcovers
  rw [onGrid_eq 17 hm]
  simp only [← hp]
  rcases hcovers with h | h <;> rw [h]
  · cases readsBack b ((b.inUnits p).1/(b.inUnits p).2+1) p
    · exact ⟨_,rfl⟩
    · simp only
      split <;> exact ⟨_,rfl⟩
  · cases readsBack b ((b.inUnits p).1/(b.inUnits p).2) p
    · exact ⟨_,rfl⟩
    · simp only
      split <;> exact ⟨_,rfl⟩

theorem value_stripZeros_go (n : ℕ) (d : Decimal) :
    (Decimal.stripZeros.go n d).value = d.value := by
  induction n generalizing d with
  | zero => rfl
  | succ n ih =>
    rw [Decimal.stripZeros.go]
    split
    · rename_i hzero
      have hdigits : d.digits = 10*(d.digits/10) := by omega
      rw [ih,Decimal.value,Decimal.value,ten_zpow_add,zpow_one]
      conv_rhs => rw [hdigits]
      push_cast
      ring
    · rfl

theorem nearest_shortest (hb : b.IsCanonical) (hm : 0 < b.mantissa) :
    nearest (shortest b).value = b.value := by
  obtain ⟨d,hd⟩ := exists_onGrid hb hm
  have hsome : ∃ d, (List.range' 1 17).findSome? (onGrid b) = some d := by
    refine Option.isSome_iff_exists.mp (List.findSome?_isSome_iff.mpr ⟨17,by simp,?_⟩)
    rw [hd]
    rfl
  obtain ⟨d,hfound⟩ := hsome
  obtain ⟨k,-,hk⟩ := List.exists_of_findSome?_eq_some hfound
  rw [shortest,hfound,Option.getD_some,Decimal.stripZeros,value_stripZeros_go]
  exact (covers_of_onGrid hm hk).nearest_eq hb hm

end Search

end Number
end NumericWorkbench
