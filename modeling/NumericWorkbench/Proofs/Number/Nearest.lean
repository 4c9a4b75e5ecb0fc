import Mathlib
/-! Rounding to the grid of the floating-point numbers, with no bound on their size. The grid has
53 binary digits around every number, and nothing below `2 ^ -1074`. -/
namespace NumericWorkbench
namespace Number

/-- The whole number nearest to a number that is not negative. A half goes to the even one. -/
def toEven (x : ℚ) : ℕ :=
  if x < ⌊x⌋₊+1/2 then ⌊x⌋₊ else if ⌊x⌋₊+1/2 < x then ⌊x⌋₊+1 else ⌊x⌋₊+⌊x⌋₊%2

/-- The power of two of the last digit that the grid has at a number. -/
def lastPlace (x : ℚ) : ℤ := max (Int.log 2 |x|-52) (-1074)

/-- The number of the grid that is nearest to a number. -/
def nearest (x : ℚ) : ℚ :=
  SignType.sign x*(toEven (|x|/2^lastPlace x)*2^lastPlace x)

/-- The numbers of the grid. -/
def IsGrid (z : ℚ) : Prop := ∃ (m : ℕ) (e : ℤ), m < 2^53 ∧ -1074 ≤ e ∧ |z| = m*2^e

theorem floor_le_toEven (x : ℚ) : ⌊x⌋₊ ≤ toEven x := by
  unfold toEven
  split_ifs <;> omega

theorem toEven_le_succ (x : ℚ) : toEven x ≤ ⌊x⌋₊+1 := by
  unfold toEven
  split_ifs <;> omega

theorem le_toEven {x : ℚ} {n : ℕ} (h : (n : ℚ) ≤ x) : n ≤ toEven x :=
  (Nat.le_floor h).trans (floor_le_toEven x)

theorem toEven_le {x : ℚ} {n : ℕ} (hx : 0 ≤ x) (h : x ≤ n) : toEven x ≤ n := by
  rcases h.lt_or_eq with h | rfl
  · have hfloor : ⌊x⌋₊ < n := (Nat.floor_lt hx).mpr h
    exact (toEven_le_succ x).trans hfloor
  · simp [toEven]

theorem toEven_eq_zero_iff {x : ℚ} : toEven x = 0 ↔ x ≤ 1/2 := by
  constructor
  · intro h
    have hfloor : ⌊x⌋₊ = 0 := Nat.le_zero.mp (h ▸ floor_le_toEven x)
    rw [toEven,hfloor] at h
    by_contra hhalf
    rw [if_neg (by push_cast; linarith),if_pos (by push_cast; linarith)] at h
    omega
  · intro h
    have hfloor : ⌊x⌋₊ = 0 := Nat.floor_eq_zero.mpr (by linarith)
    rw [toEven,hfloor]
    split_ifs with h₁ h₂
    · rfl
    · push_cast at h₂
      linarith
    · rfl

section Whole
variable {x : ℚ} {n : ℕ}

theorem toEven_spec (hx : 0 ≤ x) :
    |toEven x-x| < 1/2 ∨ |toEven x-x| = 1/2 ∧ Even (toEven x) := by
  have hle : (⌊x⌋₊ : ℚ) ≤ x := Nat.floor_le hx
  have hlt : x < ⌊x⌋₊+1 := Nat.lt_floor_add_one x
  unfold toEven
  split_ifs with hbelow habove
  · left
    rw [abs_lt]
    constructor <;> linarith
  · left
    rw [abs_lt]
    push_cast
    constructor <;> linarith
  · right
    have hx : x = ⌊x⌋₊+1/2 := le_antisymm (not_lt.mp habove) (not_lt.mp hbelow)
    rcases Nat.even_or_odd ⌊x⌋₊ with heven | hodd
    · rw [Nat.even_iff.mp heven,add_zero]
      refine ⟨?_,heven⟩
      rw [abs_of_nonpos (by linarith)]
      linarith
    · rw [Nat.odd_iff.mp hodd]
      refine ⟨?_,hodd.add_one⟩
      push_cast
      rw [abs_of_nonneg (by linarith)]
      linarith

theorem toEven_eq_iff (hx : 0 ≤ x) :
    toEven x = n ↔ |n-x| < 1/2 ∨ |n-x| = 1/2 ∧ Even n := by
  constructor
  · rintro rfl
    exact toEven_spec hx
  · intro h
    have hspec := toEven_spec hx
    have hclose : |(toEven x : ℚ)-n| ≤ |toEven x-x|+|n-x| := by
      rw [abs_sub_comm (n : ℚ)]
      exact abs_sub_le _ _ _
    by_contra hne
    have hone : (1 : ℚ) ≤ |(toEven x : ℚ)-n| := by
      have : (1 : ℤ) ≤ |(toEven x : ℤ)-n| := Int.one_le_abs (by omega)
      exact_mod_cast this
    -- two different whole numbers are both at a half, and then not both are even
    rcases h with h | ⟨h,heven⟩
    · rcases hspec with hspec | ⟨hspec,-⟩ <;> linarith
    rcases hspec with hspec | ⟨hspec,heven'⟩
    · linarith
    have hdiff : |(toEven x : ℤ)-n| = 1 := by
      have hle : |(toEven x : ℚ)-n| ≤ 1 := by linarith
      exact_mod_cast le_antisymm hle hone
    rw [Nat.even_iff] at heven heven'
    rcases (abs_eq zero_le_one).mp hdiff with hd | hd <;> omega

theorem abs_toEven_sub_le (hx : 0 ≤ x) : |toEven x-x| ≤ 1/2 := by
  rcases toEven_spec hx with h | h
  · exact h.le
  · exact h.1.le

theorem abs_toEven_sub_le_abs (hx : 0 ≤ x) (n : ℕ) : |toEven x-x| ≤ |n-x| := by
  by_cases hn : |(n : ℚ)-x| < 1/2
  · rw [(toEven_eq_iff hx).mpr (.inl hn)]
  · exact (abs_toEven_sub_le hx).trans (not_lt.mp hn)

end Whole

section Units
variable {x u : ℚ}

theorem mul_sub_eq (hu : 0 < u) (y x : ℚ) : |y*u-x| = u*|y-x/u| := by
  rw [← abs_of_pos hu,← abs_mul,abs_of_pos hu,mul_sub,mul_div_cancel₀ _ hu.ne',mul_comm]

theorem toEven_mul_eq_iff {n : ℕ} (hu : 0 < u) (hx : 0 ≤ x) :
    toEven (x/u)*u = n*u ↔ |n*u-x| < u/2 ∨ |n*u-x| = u/2 ∧ Even n := by
  have hhalf : u/2 = u*(1/2) := by ring
  rw [mul_left_inj' hu.ne',Nat.cast_inj,toEven_eq_iff (div_nonneg hx hu.le),mul_sub_eq hu,hhalf,
    mul_lt_mul_iff_right₀ hu,mul_right_inj' hu.ne']

theorem abs_toEven_mul_sub_le (hu : 0 < u) (hx : 0 ≤ x) (n : ℕ) :
    |toEven (x/u)*u-x| ≤ |n*u-x| := by
  rw [mul_sub_eq hu,mul_sub_eq hu]
  exact mul_le_mul_of_nonneg_left (abs_toEven_sub_le_abs (div_nonneg hx hu.le) n) hu.le

end Units

theorem two_zpow_pos (e : ℤ) : (0 : ℚ) < 2^e := zpow_pos two_pos e

theorem two_zpow_add (d e : ℤ) : (2 : ℚ)^(d+e) = 2^d*2^e := zpow_add₀ two_ne_zero d e

theorem ten_zpow_pos (e : ℤ) : (0 : ℚ) < 10^e := zpow_pos (by norm_num) e

theorem ten_zpow_add (d e : ℤ) : (10 : ℚ)^(d+e) = 10^d*10^e := zpow_add₀ (by norm_num) d e

theorem lastPlace_neg (x : ℚ) : lastPlace (-x) = lastPlace x := by rw [lastPlace,abs_neg,lastPlace]

theorem nearest_neg (x : ℚ) : nearest (-x) = -nearest x := by
  rw [nearest,lastPlace_neg,abs_neg,Left.sign_neg,SignType.coe_neg,neg_mul,nearest]

@[simp] theorem nearest_zero : nearest 0 = 0 := by simp [nearest]

theorem nearest_of_pos {x : ℚ} (hx : 0 < x) :
    nearest x = toEven (x/2^lastPlace x)*2^lastPlace x := by
  rw [nearest,sign_pos hx,SignType.coe_one,one_mul,abs_of_pos hx]

theorem nearest_eq_iff {x : ℚ} {m : ℕ} {e : ℤ} (hx : 0 < x) (hplace : lastPlace x = e) :
    nearest x = m*2^e ↔ |m*2^e-x| < 2^e/2 ∨ |m*2^e-x| = 2^e/2 ∧ Even m := by
  rw [nearest_of_pos hx,hplace]
  exact toEven_mul_eq_iff (two_zpow_pos e) hx.le

theorem abs_nearest_sub_le {x : ℚ} (hx : 0 < x) : |nearest x-x| ≤ 2^lastPlace x/2 := by
  have hclose := (nearest_eq_iff hx rfl).mp (nearest_of_pos hx)
  rw [← nearest_of_pos hx] at hclose
  exact hclose.elim le_of_lt fun h => h.1.le

theorem nearest_nonneg {x : ℚ} (hx : 0 ≤ x) : 0 ≤ nearest x := by
  rcases hx.eq_or_lt with rfl | hx
  · simp
  · rw [nearest_of_pos hx]
    have := two_zpow_pos (lastPlace x)
    positivity

theorem two_zpow_le {x : ℚ} (hx : 0 < x) (h : -1074 < lastPlace x) : 2^(52+lastPlace x) ≤ x := by
  have hlog : lastPlace x = Int.log 2 x-52 := by
    rw [lastPlace,abs_of_pos hx] at h ⊢
    exact max_eq_left ((lt_max_iff.mp h).resolve_right (lt_irrefl _)).le
  rw [hlog,show 52+(Int.log 2 x-52) = Int.log 2 x by ring]
  exact_mod_cast Int.zpow_log_le_self (by norm_num) hx

theorem lastPlace_of_lt {x : ℚ} (hx : 0 < x) (h : x < 2^(-1021 : ℤ)) : lastPlace x = -1074 := by
  have hlog : Int.log 2 x < -1021 :=
    (Int.lt_zpow_iff_log_lt (b := 2) (by norm_num) hx).mp (by exact_mod_cast h)
  rw [lastPlace,abs_of_pos hx]
  omega

theorem lastPlace_eq {x : ℚ} {e : ℤ} (he : -1074 ≤ e) (hle : 2^(52+e) ≤ x) (hlt : x < 2^(53+e)) :
    lastPlace x = e := by
  have hx : 0 < x := (two_zpow_pos _).trans_le hle
  have hlow : 52+e ≤ Int.log 2 x :=
    (Int.zpow_le_iff_le_log (b := 2) (by norm_num) hx).mp (by exact_mod_cast hle)
  have hhigh : Int.log 2 x < 53+e :=
    (Int.lt_zpow_iff_log_lt (b := 2) (by norm_num) hx).mp (by exact_mod_cast hlt)
  rw [lastPlace,abs_of_pos hx]
  omega

theorem lt_two_zpow {x : ℚ} (hx : 0 < x) : x < 2^(53+lastPlace x) := by
  have hlog : Int.log 2 x+1 ≤ 53+lastPlace x := by
    rw [lastPlace,abs_of_pos hx]
    have := le_max_left (Int.log 2 x-52) (-1074)
    omega
  calc x < 2^(Int.log 2 x+1) := by exact_mod_cast Int.lt_zpow_succ_log_self (by norm_num) x
    _ ≤ 2^(53+lastPlace x) := zpow_le_zpow_right₀ one_le_two hlog

/-- A number of the grid is either a multiple of the last place of another number or far below
that number. -/
theorem IsGrid.multiple_or_lt {x z : ℚ} (hx : 0 < x) (hz : 0 ≤ z) (h : IsGrid z) :
    (∃ n : ℕ, z = n*2^lastPlace x) ∨ (z < 2^(52+lastPlace x) ∧ 2^(52+lastPlace x) ≤ x) := by
  obtain ⟨m,e,hm,he,hz'⟩ := h
  rw [abs_of_nonneg hz] at hz'
  rcases le_or_gt (lastPlace x) e with hle | hlt
  · refine .inl ⟨m*2^(e-lastPlace x).toNat,?_⟩
    have hpow : (2 : ℚ)^e = 2^(e-lastPlace x).toNat*2^lastPlace x := by
      rw [← zpow_natCast,Int.toNat_of_nonneg (by omega),← two_zpow_add]
      congr 1
      ring
    rw [hz',hpow]
    push_cast
    ring
  · refine .inr ⟨?_,two_zpow_le hx (by omega)⟩
    have hm' : (m : ℚ) < 2^(53 : ℤ) := by exact_mod_cast hm
    calc z = m*2^e := hz'
      _ < 2^(53 : ℤ)*2^e := mul_lt_mul_of_pos_right hm' (two_zpow_pos e)
      _ = 2^(53+e) := (two_zpow_add 53 e).symm
      _ ≤ 2^(52+lastPlace x) := zpow_le_zpow_right₀ one_le_two (by omega)

theorem IsGrid.neg {z : ℚ} (h : IsGrid z) : IsGrid (-z) := by rwa [IsGrid,abs_neg]

theorem IsGrid.double {z : ℚ} (h : IsGrid z) : IsGrid (2*z) := by
  obtain ⟨m,e,hm,he,hz⟩ := h
  refine ⟨m,e+1,hm,by omega,?_⟩
  rw [abs_mul,hz,two_zpow_add,abs_two,zpow_one]
  ring

theorem isGrid_two_zpow {e : ℤ} (h : -1074 ≤ e) : IsGrid (2^e) :=
  ⟨1,e,by norm_num,h,by rw [Nat.cast_one,one_mul,abs_of_pos (two_zpow_pos e)]⟩

section Positive
variable {x z : ℚ}

theorem le_nearest_of_pos (hx : 0 < x) (hz : 0 ≤ z) (h : IsGrid z) (hle : z ≤ x) :
    z ≤ nearest x := by
  have hpos := two_zpow_pos (lastPlace x)
  rw [nearest_of_pos hx]
  rcases h.multiple_or_lt hx hz with ⟨n,rfl⟩ | ⟨hlt,hfull⟩
  · have hn : n ≤ toEven (x/2^lastPlace x) := le_toEven ((le_div_iff₀ hpos).mpr hle)
    exact mul_le_mul_of_nonneg_right (Nat.cast_le.mpr hn) hpos.le
  · have hn : 2^52 ≤ toEven (x/2^lastPlace x) := by
      refine le_toEven ((le_div_iff₀ hpos).mpr ?_)
      rw [two_zpow_add] at hfull
      exact_mod_cast hfull
    refine hlt.le.trans ?_
    rw [two_zpow_add]
    exact mul_le_mul_of_nonneg_right (by exact_mod_cast hn) hpos.le

theorem nearest_le_of_pos (hx : 0 < x) (h : IsGrid z) (hle : x ≤ z) : nearest x ≤ z := by
  have hpos := two_zpow_pos (lastPlace x)
  rw [nearest_of_pos hx]
  rcases h.multiple_or_lt hx (hx.le.trans hle) with ⟨n,rfl⟩ | ⟨hlt,hfull⟩
  · have hn : toEven (x/2^lastPlace x) ≤ n :=
      toEven_le (div_pos hx hpos).le ((div_le_iff₀ hpos).mpr hle)
    exact mul_le_mul_of_nonneg_right (Nat.cast_le.mpr hn) hpos.le
  · exact absurd (hle.trans_lt hlt) hfull.not_gt

end Positive

theorem IsGrid.le_nearest {x z : ℚ} (h : IsGrid z) (hle : z ≤ x) : z ≤ nearest x := by
  rcases lt_trichotomy x 0 with hx | rfl | hx
  · have hneg : nearest (-x) ≤ -z :=
      nearest_le_of_pos (neg_pos.mpr hx) h.neg (neg_le_neg hle)
    rw [nearest_neg] at hneg
    exact neg_le_neg_iff.mp hneg
  · rwa [nearest_zero]
  · rcases le_total 0 z with hz | hz
    · exact le_nearest_of_pos hx hz h hle
    · exact hz.trans (nearest_nonneg hx.le)

theorem IsGrid.nearest_le {x z : ℚ} (h : IsGrid z) (hle : x ≤ z) : nearest x ≤ z := by
  have hneg := h.neg.le_nearest (neg_le_neg hle)
  rw [nearest_neg] at hneg
  exact neg_le_neg_iff.mp hneg

theorem IsGrid.nearest_eq {z : ℚ} (h : IsGrid z) : nearest z = z :=
  le_antisymm (h.nearest_le le_rfl) (h.le_nearest le_rfl)

theorem IsGrid.nearest_mem_uIcc {x y z : ℚ} (hy : IsGrid y) (hz : IsGrid z)
    (h : x ∈ Set.uIcc y z) : nearest x ∈ Set.uIcc y z := by
  rw [Set.mem_uIcc] at h ⊢
  rcases h with ⟨hle,hle'⟩ | ⟨hle,hle'⟩
  · exact .inl ⟨hy.le_nearest hle,hz.nearest_le hle'⟩
  · exact .inr ⟨hz.le_nearest hle,hy.nearest_le hle'⟩

theorem nearest_pos_iff {x : ℚ} (hx : 0 < x) : 0 < nearest x ↔ 2^(-1075 : ℤ) < x := by
  have hpos := two_zpow_pos (lastPlace x)
  rw [nearest_of_pos hx,mul_pos_iff_of_pos_right hpos,Nat.cast_pos,Nat.pos_iff_ne_zero,Ne,
    toEven_eq_zero_iff,div_le_iff₀ hpos,not_le]
  rcases (le_max_right (Int.log 2 |x|-52) (-1074)).eq_or_lt with hlast | hlast
  · rw [lastPlace,← hlast,show (-1075 : ℤ) = -1+-1074 by norm_num,two_zpow_add,zpow_neg_one,
      one_div]
  · have hfull : 2^(52+lastPlace x) ≤ x := two_zpow_le hx hlast
    have hlt {d : ℤ} (hd : d < 52+lastPlace x) : 2^d < x :=
      (zpow_lt_zpow_right₀ one_lt_two hd).trans_le hfull
    have hhalf : 1/2*2^lastPlace x = (2 : ℚ)^(-1+lastPlace x) := by
      rw [two_zpow_add,zpow_neg_one,one_div]
    have hplace : -1074 < lastPlace x := hlast
    rw [hhalf]
    exact iff_of_true (hlt (by omega)) (hlt (by omega))

theorem nearest_neg_iff {x : ℚ} : nearest x < 0 ↔ x < 0 ∧ 2^(-1075 : ℤ) < |x| := by
  rcases lt_or_ge x 0 with hx | hx
  · have h := nearest_pos_iff (neg_pos.mpr hx)
    rw [nearest_neg,neg_pos] at h
    rw [h,abs_of_neg hx,and_iff_right hx]
  · exact iff_of_false (nearest_nonneg hx).not_gt fun h => hx.not_gt h.1

end Number
end NumericWorkbench
