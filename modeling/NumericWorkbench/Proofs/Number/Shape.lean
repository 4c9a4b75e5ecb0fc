import NumericWorkbench.Proofs.Number.Value
/-! What the bits of a finite number say: its sign and its magnitude. Together they determine the
number, and there are two zeros. -/
namespace NumericWorkbench
namespace Number
open Float.Model Float.Model.UnpackedFloat

def Binary.value (b : Binary) : ℚ := b.mantissa*2^b.exponent

theorem Binary.value_nonneg (b : Binary) : 0 ≤ b.value :=
  mul_nonneg (Nat.cast_nonneg _) (two_zpow_pos _).le

def signed (negative : Bool) (x : ℚ) : ℚ := if negative then -x else x

@[simp] theorem signed_false (x : ℚ) : signed false x = x := rfl

@[simp] theorem signed_true (x : ℚ) : signed true x = -x := rfl

@[simp] theorem abs_signed (negative : Bool) (x : ℚ) : |signed negative x| = |x| := by
  cases negative <;> simp

theorem nearest_signed (negative : Bool) (x : ℚ) :
    nearest (signed negative x) = signed negative (nearest x) := by
  cases negative <;> simp [nearest_neg]

/-- The magnitudes of finite numbers. -/
structure Binary.IsCanonical (b : Binary) : Prop where
  mantissa_lt : b.mantissa < 2^53
  exponent_le : b.exponent ≤ 971
  le_exponent : -1074 ≤ b.exponent
  digits : 2^52 ≤ b.mantissa ∨ b.exponent = -1074
  leading_iff : b.leading = true ↔ b.mantissa = 2^52 ∧ -1074 < b.exponent

def isNegative : UnpackedFloat → Bool
  | .zero s | .finite s _ _ _ | .infinity s => s == .negative
  | .notANumber => false

theorem isNegative_unpack {b : BitVec 64} (h : (unpack .binary64 b).isFinite = true) :
    isNegative (unpack .binary64 b) = (b.toNat/2^63 == 1) := by
  have hbit : ∀ s : BitVec 1, (Sign.ofBitVec s == .negative) = (s.toNat == 1) := by decide
  rw [← toNat_sign,← hbit]
  rw [← components_unpack b,unpack_components] at h
  conv_lhs => rw [← components_unpack b,unpack_components]
  split_ifs at h ⊢
  · cases h
  · cases h
  · rfl
  · rfl
  · rfl

section Bits
variable {x y : Float}

theorem signBit_eq (h : x.isFinite = true) : signBit x = isNegative (parts x) :=
  (isNegative_unpack h).symm

theorem valueOf_ofBitVec (s : BitVec 1) (m : ℕ) (e : ℤ) (hm : 0 < m) :
    valueOf (.finite (Sign.ofBitVec s) m e hm) = signed (s.toNat == 1) (m*2^e) := by
  have hs : s = 0#1 ∨ s = 1#1 := by
    revert s
    decide
  rcases hs with rfl | rfl <;> rfl

theorem shape_eq (x : Float) : shape x =
    let power := (@unpackExponent .binary64 (bits x)).toNat
    let fraction := (@unpackMantissa .binary64 (bits x)).toNat
    if power = 2047 then if fraction = 0 then .infinite (signBit x) else .undefined
    else if power = 0 then .finite (signBit x) ⟨fraction,-1074,false⟩
    else .finite (signBit x)
      ⟨fractionUnit+fraction,(power : Int)-1075,fraction == 0 && 1 < power⟩ := by
  simp only [toNat_exponent,toNat_mantissa]
  rfl

theorem isCanonical_subnormal {fraction : ℕ} (h : fraction < 2^52) :
    Binary.IsCanonical ⟨fraction,-1074,false⟩ where
  mantissa_lt := by dsimp only; omega
  exponent_le := by norm_num
  le_exponent := le_rfl
  digits := .inr rfl
  leading_iff := by simp

theorem isCanonical_normal {fraction power : ℕ} (h : fraction < 2^52) (hpower : power ≠ 0)
    (hlt : power < 2047) :
    Binary.IsCanonical ⟨fractionUnit+fraction,(power : ℤ)-1075,fraction == 0 && 1 < power⟩ := by
  have hunit : fractionUnit = 2^52 := rfl
  refine ⟨?_,?_,?_,.inl ?_,?_⟩
  case refine_5 =>
    simp only [Bool.and_eq_true,beq_iff_eq,decide_eq_true_eq]
    omega
  all_goals
    dsimp only
    omega

theorem exists_binary (h : x.isFinite = true) :
    ∃ b : Binary, shape x = .finite (signBit x) b ∧ b.IsCanonical ∧
      value x = signed (signBit x) b.value := by
  have hfinite := isFinite_iff.mp h
  have hmantissa := (@unpackMantissa .binary64 (bits x)).isLt
  have hexponent := (@unpackExponent .binary64 (bits x)).isLt
  have hsign : ((@unpackSign .binary64 (bits x)).toNat == 1) = signBit x := by
    rw [toNat_sign]
    rfl
  have hshape := shape_eq x
  have hvalue : value x = valueOf (unpack .binary64 (bits x)) := rfl
  rw [← components_unpack (bits x),unpack_components] at hvalue
  rw [hshape,hvalue,← hsign]
  generalize @unpackSign .binary64 (bits x) = s at *
  generalize @unpackMantissa .binary64 (bits x) = mantissa at *
  generalize @unpackExponent .binary64 (bits x) = exponent at *
  change mantissa.toNat < 2^52 at hmantissa
  change exponent.toNat < 2^11 at hexponent
  have hinfinite : exponent.toNat ≠ 2047 := fun heq => hfinite (BitVec.eq_of_toNat_eq heq)
  simp only [if_neg hinfinite,if_neg hfinite]
  by_cases hsubnormal : exponent = 0#11
  · have hpower : exponent.toNat = 0 := by rw [hsubnormal]; rfl
    rw [if_pos hpower,if_pos hsubnormal]
    refine ⟨_,rfl,isCanonical_subnormal hmantissa,?_⟩
    split_ifs with hpos
    · exact valueOf_ofBitVec s _ _ hpos
    · rw [Nat.eq_zero_of_not_pos hpos]
      simp [Binary.value,valueOf,signed]
  · have hpower : exponent.toNat ≠ 0 := fun heq => hsubnormal (BitVec.eq_of_toNat_eq heq)
    rw [if_neg hpower,if_neg hsubnormal]
    refine ⟨_,rfl,isCanonical_normal hmantissa hpower (by omega),?_⟩
    rw [valueOf_ofBitVec,toNat_withLeading]
    rfl

end Bits

theorem isFinite_iff_not {x : Float} : x.isFinite = true ↔ x.isNaN = false ∧ x.isInf = false := by
  have hnan : x.isNaN = (parts x).isNaN := rfl
  have hinf : x.isInf = (parts x).isInf := rfl
  rw [isFinite_eq_parts,hnan,hinf]
  cases parts x <;> simp [UnpackedFloat.isFinite,UnpackedFloat.isNaN,UnpackedFloat.isInf]

section Uniqueness
variable {x y : Float}

theorem pack_unpack {b : BitVec 64} (h : (unpack .binary64 b).isFinite = true) :
    pack .binary64 (unpack .binary64 b) = b := by
  have hb := components_unpack b
  rw [← hb,unpack_components] at h
  conv_lhs => rw [← hb,unpack_components]
  refine Eq.trans ?_ hb
  split_ifs at h ⊢ with hinfinite hnan hsubnormal hpos
  · cases h
  · cases h
  · rw [pack_subnormal _ _ hpos rfl,hsubnormal]
  · have hzero : @unpackMantissa .binary64 b = 0#52 :=
      BitVec.eq_of_toNat_eq (Nat.eq_zero_of_not_pos hpos)
    rw [hzero,hsubnormal]
    rfl
  · exact pack_normal _ _ _ _ hinfinite rfl

theorem eq_of_parts (h : x.isFinite = true) (hparts : parts x = parts y) : x = y := by
  have hy : y.isFinite = true := by
    rw [isFinite_eq_parts] at h ⊢
    rwa [← hparts]
  refine bits_injective ?_
  calc bits x = pack .binary64 (parts x) := (pack_unpack h).symm
    _ = pack .binary64 (parts y) := by rw [hparts]
    _ = bits y := pack_unpack hy

theorem Canonical.eq {u v : UnpackedFloat} (hu : Canonical u) (hv : Canonical v)
    (hvalue : valueOf u = valueOf v) (hsign : isNegative u = isNegative v) : u = v := by
  have hne (s : Sign) {m : ℕ} (hm : 0 < m) (e : ℤ) : valueOf (.finite s m e hm) ≠ 0 := by
    have hpos := mul_pos (Nat.cast_pos.mpr hm) (two_zpow_pos e)
    rw [valueOf_finite,← abs_pos,abs_withSign,abs_of_pos hpos]
    exact hpos
  cases hu with
  | zero s =>
    cases hv with
    | zero t => cases s <;> cases t <;> simp_all [isNegative]
    | @finite t n d hn => exact absurd hvalue.symm (hne t hn d)
  | @finite s m e hm hlt hle hdigits =>
    cases hv with
    | zero t => exact absurd hvalue (hne s hm e)
    | @finite t n d hn hlt' hle' hdigits' =>
      obtain rfl : s = t := by cases s <;> cases t <;> simp_all [isNegative]
      have hmagnitude : (m : ℚ)*2^e = n*2^d := by
        cases s with
        | positive => exact hvalue
        | negative => exact neg_injective hvalue
      have hcompare := compare_magnitude hlt hle hdigits hlt' hle' hdigits'
      rw [compare_eq_iff_eq.mpr hmagnitude,Ordering.then_eq_eq] at hcompare
      obtain rfl := Int.compare_eq_eq.mp hcompare.1
      obtain rfl := Nat.compare_eq_eq.mp hcompare.2
      rfl

/-- A finite number is known by its value and its sign, which tells the zeros apart. -/
theorem eq_of_value (hx : x.isFinite = true) (hy : y.isFinite = true)
    (hvalue : value x = value y) (hsign : signBit x = signBit y) : x = y := by
  rw [signBit_eq hx,signBit_eq hy] at hsign
  exact eq_of_parts hx ((canonical_parts hx).eq (canonical_parts hy) hvalue hsign)

end Uniqueness

end Number
end NumericWorkbench
