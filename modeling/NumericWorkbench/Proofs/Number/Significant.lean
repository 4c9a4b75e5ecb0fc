import NumericWorkbench.Proofs.Number.Nearest
/-! Rounding to a number of significant decimal digits, and the grid after it. With at most fifteen
digits, a number of the grid that comes from such a decimal leads back to itself. -/
namespace NumericWorkbench
namespace Number

/-- The power of ten of the last of `k` digits. -/
def decimalPlace (k : ℕ) (x : ℚ) : ℤ := Int.log 10 |x|-k+1

/-- A number rounded to `k` significant digits. -/
def significant (k : ℕ) (x : ℚ) : ℚ :=
  SignType.sign x*(toEven (|x|/10^decimalPlace k x)*10^decimalPlace k x)

/-- The decimals of `k` digits. A carry is one digit. -/
def HasDigits (k : ℕ) (z : ℚ) : Prop := ∃ (c : ℕ) (q : ℤ), c ≤ 10^k ∧ z = c*10^q

section Digits
variable {k : ℕ} {x y z : ℚ}

@[simp] theorem significant_zero (k : ℕ) : significant k 0 = 0 := by simp [significant]

theorem significant_neg (k : ℕ) (x : ℚ) : significant k (-x) = -significant k x := by
  rw [significant,decimalPlace,abs_neg,Left.sign_neg,SignType.coe_neg,neg_mul,significant,
    decimalPlace]

theorem significant_of_pos (hx : 0 < x) :
    significant k x = toEven (x/10^decimalPlace k x)*10^decimalPlace k x := by
  rw [significant,sign_pos hx,SignType.coe_one,one_mul,abs_of_pos hx]

theorem significant_nonneg (k : ℕ) (hx : 0 ≤ x) : 0 ≤ significant k x := by
  rcases hx.eq_or_lt with rfl | hx
  · rw [significant_zero]
  · have := ten_zpow_pos (decimalPlace k x)
    rw [significant_of_pos hx]
    positivity

theorem ten_zpow_log_le (hx : 0 < x) : 10^Int.log 10 x ≤ x := by
  exact_mod_cast Int.zpow_log_le_self (b := 10) (by norm_num) hx

theorem lt_ten_zpow_log (x : ℚ) : x < 10^(Int.log 10 x+1) := by
  exact_mod_cast Int.lt_zpow_succ_log_self (b := 10) (by norm_num) x

theorem decimalPlace_of_pos (hx : 0 < x) : decimalPlace k x = Int.log 10 x-k+1 := by
  rw [decimalPlace,abs_of_pos hx]

theorem lt_ten_pow_mul (hx : 0 < x) : x < 10^k*10^decimalPlace k x := by
  rw [← zpow_natCast,← ten_zpow_add,decimalPlace_of_pos hx]
  convert lt_ten_zpow_log x using 2
  ring

theorem ten_zpow_log_eq (hk : 0 < k) (hx : 0 < x) :
    (10 : ℚ)^Int.log 10 x = (10^(k-1) : ℕ)*10^decimalPlace k x := by
  rw [Nat.cast_pow,Nat.cast_ofNat,← zpow_natCast,← ten_zpow_add,decimalPlace_of_pos hx,
    Nat.cast_pred hk]
  congr 1
  ring

theorem hasDigits_significant (hx : 0 < x) : HasDigits k (significant k x) := by
  have hpos := ten_zpow_pos (decimalPlace k x)
  refine ⟨_,_,toEven_le (div_pos hx hpos).le ?_,significant_of_pos hx⟩
  rw [div_le_iff₀ hpos]
  exact_mod_cast (lt_ten_pow_mul hx).le

theorem HasDigits.multiple_or_le (h : HasDigits k z) (hk : 0 < k) (hx : 0 < x) :
    (∃ n : ℕ, z = n*10^decimalPlace k x) ∨ z+z/10^k ≤ 10^Int.log 10 x := by
  obtain ⟨c,q,hc,rfl⟩ := h
  have hq := ten_zpow_pos q
  have multiple {d e : ℤ} (h : e ≤ d) : (10 : ℚ)^d = (10^(d-e).toNat : ℕ)*10^e := by
    rw [Nat.cast_pow,Nat.cast_ofNat,← zpow_natCast,Int.toNat_of_nonneg (by omega),← ten_zpow_add]
    congr 1
    ring
  rcases le_or_gt (decimalPlace k x) q with hle | hlt
  · refine .inl ⟨c*10^(q-decimalPlace k x).toNat,?_⟩
    rw [multiple hle,Nat.cast_mul,mul_assoc]
  have hplace := decimalPlace_of_pos (k := k) hx
  set n := 10^(Int.log 10 x-q).toNat with hn
  have hlog : (10 : ℚ)^Int.log 10 x = n*10^q := multiple (by omega)
  have hcn : c ≤ n := hc.trans (Nat.pow_le_pow_right (by norm_num) (by omega))
  rcases hcn.eq_or_lt with rfl | hcn
  · exact .inl ⟨10^(k-1),by rw [← hlog,ten_zpow_log_eq hk hx]⟩
  · right
    have hunit : (c : ℚ)*10^q/10^k ≤ 10^q := by
      rw [div_le_iff₀ (by positivity),mul_comm]
      exact mul_le_mul_of_nonneg_left (by exact_mod_cast hc) hq.le
    calc (c : ℚ)*10^q+c*10^q/10^k ≤ c*10^q+10^q := by linarith
      _ = (c+1 : ℕ)*10^q := by push_cast; ring
      _ ≤ n*10^q := mul_le_mul_of_nonneg_right (by exact_mod_cast hcn) hq.le
      _ = 10^Int.log 10 x := hlog.symm

theorem HasDigits.abs_sub_le (h : HasDigits k z) (hk : 0 < k) (hx : 0 < x) :
    |significant k x-x| ≤ |z-x| := by
  have hpos := ten_zpow_pos (decimalPlace k x)
  have closest (n : ℕ) : |significant k x-x| ≤ |n*10^decimalPlace k x-x| := by
    rw [significant_of_pos hx]
    exact abs_toEven_mul_sub_le hpos hx.le n
  rcases h.multiple_or_le hk hx with ⟨n,rfl⟩ | hbelow
  · exact closest n
  · have hz : 0 ≤ z/10^k := by
      obtain ⟨c,q,-,rfl⟩ := h
      have := ten_zpow_pos q
      positivity
    have hlog := ten_zpow_log_le hx
    have hle := closest (10^(k-1))
    rw [← ten_zpow_log_eq hk hx,abs_of_nonpos (by linarith : (10 : ℚ)^Int.log 10 x-x ≤ 0)] at hle
    rw [abs_of_nonpos (by linarith : z-x ≤ 0)]
    linarith

end Digits

section Grid
variable {k : ℕ} {x y z : ℚ}

/-- Where there are 53 digits, rounding changes a number little in proportion. -/
theorem abs_nearest_sub_le_mul (hx : 0 < x) (h : 2^(-1022 : ℤ) ≤ nearest x) :
    |nearest x-x| ≤ x/2^52 := by
  have herror := abs_nearest_sub_le hx
  have hmin : -1074 ≤ lastPlace x := le_max_right _ _
  rcases hmin.eq_or_lt with heq | hlt
  · have hlast : (2 : ℚ)^lastPlace x = 2^(-1022 : ℤ)/2^52 := by
      rw [← heq,show (-1074 : ℤ) = -1022-52 by norm_num,zpow_sub₀ two_ne_zero]
      norm_cast
    have hpos := two_zpow_pos (-1022)
    rw [hlast] at herror
    have := abs_le.mp herror
    refine herror.trans ?_
    linarith
  · have hfull := two_zpow_le hx hlt
    rw [two_zpow_add] at hfull
    have hpos := two_zpow_pos (lastPlace x)
    rw [le_div_iff₀' (by norm_num)]
    calc 2^52*|nearest x-x| ≤ 2^52*2^lastPlace x :=
          mul_le_mul_of_nonneg_left (herror.trans (by linarith)) (by norm_num)
      _ = 2^(52 : ℤ)*2^lastPlace x := by norm_cast
      _ ≤ x := hfull

/-- Decimals of so few digits are further apart than rounding to the grid moves them. -/
theorem HasDigits.significant_nearest (h : HasDigits k z) (hk : 0 < k) (hk' : k ≤ 15) (hz : 0 < z)
    (hnormal : 2^(-1022 : ℤ) ≤ nearest z) : significant k (nearest z) = z := by
  have hy : 0 < nearest z := (two_zpow_pos _).trans_le hnormal
  have herror := abs_nearest_sub_le_mul hz hnormal
  have hdigits : (10 : ℚ)^k < 2^50 := by
    calc (10 : ℚ)^k ≤ 10^15 := pow_le_pow_right₀ (by norm_num) hk'
      _ < 2^50 := by norm_num
  have hbounds := abs_le.mp herror
  rcases h.multiple_or_le hk hy with ⟨n,hn⟩ | hbelow
  · have hpos := ten_zpow_pos (decimalPlace k (nearest z))
    have hlt : nearest z < 2^50*10^decimalPlace k (nearest z) :=
      (lt_ten_pow_mul hy).trans (mul_lt_mul_of_pos_right hdigits hpos)
    have hclose : |n*10^decimalPlace k (nearest z)-nearest z| <
        10^decimalPlace k (nearest z)/2 := by
      rw [← hn,abs_sub_comm]
      refine herror.trans_lt ?_
      linarith
    rw [significant_of_pos hy,(toEven_mul_eq_iff hpos hy.le).mpr (.inl hclose),← hn]
  · have hgap : z/2^50 < z/10^k := div_lt_div_of_pos_left hz (by positivity) hdigits
    have hlog := ten_zpow_log_le hy
    linarith

/-- Where digits are missing, what is nearer to a number than another number that is rounded to it is
rounded to it too. -/
theorem nearest_eq_of_abs_sub_le (hz : 0 < z) (hy : 0 < nearest z)
    (hsmall : nearest z < 2^(-1022 : ℤ)) (h : |nearest z-x| ≤ |nearest z-z|) :
    nearest x = nearest z := by
  have hunit := two_zpow_pos (-1074)
  have hgrid : (2 : ℚ)^(-1022 : ℤ) = 2^52*2^(-1074 : ℤ) := by
    rw [show (-1022 : ℤ) = (52 : ℕ)+-1074 by norm_num,two_zpow_add,zpow_natCast]
  have hgrid' : (2 : ℚ)^(-1021 : ℤ) = 2^53*2^(-1074 : ℤ) := by
    rw [show (-1021 : ℤ) = (53 : ℕ)+-1074 by norm_num,two_zpow_add,zpow_natCast]
  have hzsmall : z < 2^(-1022 : ℤ) :=
    not_le.mp fun hle => hsmall.not_ge ((isGrid_two_zpow (by norm_num)).le_nearest hle)
  have hplace : lastPlace z = -1074 := lastPlace_of_lt hz (by linarith)
  obtain ⟨n,hn⟩ : ∃ n : ℕ, nearest z = n*2^(-1074 : ℤ) :=
    ⟨_,by rw [nearest_of_pos hz,hplace]⟩
  have hclose := (nearest_eq_iff hz hplace).mp hn
  rw [← hn] at hclose
  have hhalf : |nearest z-z| ≤ 2^(-1074 : ℤ)/2 := hclose.elim le_of_lt fun h => h.1.le
  have hbounds := abs_le.mp (h.trans hhalf)
  have hone : (2 : ℚ)^(-1074 : ℤ) ≤ nearest z := by
    rw [hn] at hy ⊢
    have hpos : 0 < n := Nat.cast_pos.mp ((mul_pos_iff_of_pos_right hunit).mp hy)
    exact le_mul_of_one_le_left hunit.le (Nat.one_le_cast.mpr hpos)
  have hpos : 0 < x := by linarith
  rw [hn,nearest_eq_iff hpos (lastPlace_of_lt hpos (by linarith)),← hn]
  rcases h.lt_or_eq with hlt | heq
  · exact .inl (hlt.trans_le hhalf)
  · rwa [heq]

theorem nearest_significant_nearest (hk : 0 < k) (hk' : k ≤ 15) (x : ℚ) :
    nearest (significant k (nearest (significant k x))) = nearest (significant k x) := by
  have positive {x : ℚ} (hx : 0 < x) :
      nearest (significant k (nearest (significant k x))) = nearest (significant k x) := by
    have hdigits : HasDigits k (significant k x) := hasDigits_significant hx
    have hnonneg : 0 ≤ significant k x := significant_nonneg k hx.le
    generalize significant k x = z at hdigits hnonneg
    rcases (nearest_nonneg hnonneg).eq_or_lt with hzero | hy
    · rw [← hzero,significant_zero,nearest_zero]
    have hz : 0 < z := by
      refine hnonneg.lt_of_ne fun h => hy.ne ?_
      rw [← h,nearest_zero]
    rcases le_or_gt (2^(-1022 : ℤ)) (nearest z) with hnormal | hsmall
    · rw [hdigits.significant_nearest hk hk' hz hnormal]
    · refine nearest_eq_of_abs_sub_le hz hy hsmall ?_
      rw [abs_sub_comm,abs_sub_comm (nearest z) z]
      exact hdigits.abs_sub_le hk hy
  rcases lt_trichotomy x 0 with hx | rfl | hx
  · have h := positive (neg_pos.mpr hx)
    rw [significant_neg,nearest_neg,significant_neg,nearest_neg] at h
    exact neg_injective h
  · simp
  · exact positive hx

end Grid

/-- The largest number that is not infinite. -/
def largest : ℕ := (2^53-1)*2^971

section Largest
variable {x : ℚ}

theorem largest_eq : (largest : ℚ) = (2^53-1 : ℕ)*2^(971 : ℤ) := by
  rw [largest,Nat.cast_mul,Nat.cast_pow,Nat.cast_ofNat]
  rfl

theorem isGrid_largest : IsGrid largest :=
  ⟨2^53-1,971,by norm_num,by norm_num,by rw [Nat.abs_cast,largest_eq]⟩

theorem largest_lt : (largest : ℚ) < 2^(1024 : ℤ) := by
  have hlt : ((2^53-1 : ℕ) : ℚ) < 2^(53 : ℤ) := by norm_num
  rw [largest_eq,show (1024 : ℤ) = 53+971 by norm_num,two_zpow_add]
  exact mul_lt_mul_of_pos_right hlt (two_zpow_pos 971)

theorem ten_zpow_natCast (n : ℕ) : (10 : ℚ)^(n : ℤ) = (10^n : ℕ) := by
  rw [zpow_natCast,Nat.cast_pow,Nat.cast_ofNat]

theorem significant_le_largest (hx : 0 ≤ x) (h : x ≤ largest) : significant 12 x ≤ largest := by
  rcases hx.eq_or_lt with rfl | hx
  · rwa [significant_zero]
  have hpos := ten_zpow_pos (decimalPlace 12 x)
  have hplace := decimalPlace_of_pos (k := 12) hx
  have htop : 10^308 ≤ largest ∧ largest < 10^309 := by decide +kernel
  have hdown : 179769313486*10^297 ≤ largest ∧ 2*largest < 359538626973*10^297 := by decide +kernel
  have hlog : Int.log 10 x < (309 : ℕ) := by
    refine (Int.lt_zpow_iff_log_lt (b := 10) (by norm_num) hx).mp ?_
    rw [Nat.cast_ofNat,ten_zpow_natCast]
    exact h.trans_lt (Nat.cast_lt.mpr htop.2)
  rw [significant_of_pos hx]
  rcases (Int.lt_add_one_iff.mp (by omega) : Int.log 10 x ≤ (308 : ℕ)).eq_or_lt with heq | hlt
  · have hunit : decimalPlace 12 x = (297 : ℕ) := by omega
    have hdouble : 2*x < 359538626973*10^decimalPlace 12 x := by
      rw [hunit,ten_zpow_natCast]
      calc 2*x ≤ (2*largest : ℕ) := by rw [Nat.cast_mul,Nat.cast_ofNat]; linarith
        _ < (359538626973*10^297 : ℕ) := Nat.cast_lt.mpr hdown.2
        _ = 359538626973*(10^297 : ℕ) := by rw [Nat.cast_mul,Nat.cast_ofNat]
    have hscaled : x/10^decimalPlace 12 x < 359538626973/2 := by
      rw [div_lt_iff₀ hpos]
      linarith
    have hdigits : toEven (x/10^decimalPlace 12 x) ≤ 179769313486 := by
      have hround := (abs_le.mp (abs_toEven_sub_le (div_pos hx hpos).le)).2
      have hlt : (toEven (x/10^decimalPlace 12 x) : ℚ) < (179769313487 : ℕ) := by
        rw [Nat.cast_ofNat]
        linarith
      exact Nat.lt_succ_iff.mp (Nat.cast_lt.mp hlt)
    calc (toEven (x/10^decimalPlace 12 x) : ℚ)*10^decimalPlace 12 x ≤
          (179769313486 : ℕ)*10^decimalPlace 12 x :=
          mul_le_mul_of_nonneg_right (Nat.cast_le.mpr hdigits) hpos.le
      _ = (179769313486*10^297 : ℕ) := by rw [hunit,ten_zpow_natCast,Nat.cast_mul]
      _ ≤ largest := Nat.cast_le.mpr hdown.1
  · have hdigits : toEven (x/10^decimalPlace 12 x) ≤ 10^12 := by
      refine toEven_le (div_pos hx hpos).le ((div_le_iff₀ hpos).mpr ?_)
      exact_mod_cast (lt_ten_pow_mul hx).le
    calc (toEven (x/10^decimalPlace 12 x) : ℚ)*10^decimalPlace 12 x ≤
          (10^12 : ℕ)*10^decimalPlace 12 x :=
          mul_le_mul_of_nonneg_right (Nat.cast_le.mpr hdigits) hpos.le
      _ = 10^((12 : ℕ)+decimalPlace 12 x) := by rw [ten_zpow_add,ten_zpow_natCast]
      _ ≤ 10^((308 : ℕ) : ℤ) := zpow_le_zpow_right₀ (by norm_num) (by omega)
      _ = (10^308 : ℕ) := ten_zpow_natCast 308
      _ ≤ largest := Nat.cast_le.mpr htop.1

end Largest

end Number
end NumericWorkbench
