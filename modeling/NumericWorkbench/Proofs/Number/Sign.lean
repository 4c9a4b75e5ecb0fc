import NumericWorkbench.Number.Binary
import Mathlib
/-! The sign, the exponent and the mantissa of a floating-point number. A change of the sign leaves
the other two alone, and so it can be undone. -/
namespace NumericWorkbench
namespace Number
open Float.Model Float.Model.UnpackedFloat

section Fields
variable (b : BitVec 64)

theorem toNat_mantissa : (@unpackMantissa .binary64 b).toNat = b.toNat % 2^52 := by
  simp [unpackMantissa]

theorem toNat_exponent : (@unpackExponent .binary64 b).toNat = b.toNat / 2^52 % 2^11 := by
  simp [unpackExponent,Nat.shiftRight_eq_div_pow]

theorem toNat_sign : (@unpackSign .binary64 b).toNat = b.toNat / 2^63 := by
  have hlt := b.isLt
  simp [unpackSign,Nat.shiftRight_eq_div_pow]
  omega

theorem toNat_components (s : Sign) (exponent : BitVec 11) (mantissa : BitVec 52) :
    (packComponents .binary64 s exponent mantissa).toNat =
      s.toBitVec.toNat*2^63+exponent.toNat*2^52+mantissa.toNat := by
  have hm := mantissa.isLt
  have he := exponent.isLt
  rw [packComponents,BitVec.toNat_append,BitVec.toNat_append,
    ← Nat.shiftLeft_add_eq_or_of_lt hm,← Nat.shiftLeft_add_eq_or_of_lt he,Nat.shiftLeft_eq,
    Nat.shiftLeft_eq]
  omega

end Fields

theorem toNat_withLeading (m : BitVec 52) : (1#1 ++ m).toNat = 2^52+m.toNat := by
  rw [BitVec.toNat_append,← Nat.shiftLeft_add_eq_or_of_lt m.isLt]
  simp [Nat.shiftLeft_eq]

theorem toBitVec_ofBitVec (s : BitVec 1) : (Sign.ofBitVec s).toBitVec = s := by
  revert s
  decide

theorem ofBitVec_toBitVec (s : Sign) : Sign.ofBitVec s.toBitVec = s := by cases s <;> rfl

theorem components_unpack (b : BitVec 64) :
    packComponents .binary64 (Sign.ofBitVec (@unpackSign .binary64 b))
      (@unpackExponent .binary64 b) (@unpackMantissa .binary64 b) = b := by
  have hlt := b.isLt
  refine BitVec.eq_of_toNat_eq ?_
  rw [toNat_components,toBitVec_ofBitVec,toNat_sign,toNat_exponent,toNat_mantissa]
  omega

theorem unpackSign_components (s : Sign) (exponent : BitVec 11) (mantissa : BitVec 52) :
    unpackSign (packComponents .binary64 s exponent mantissa) = s.toBitVec := by
  have hm := mantissa.isLt
  have he := exponent.isLt
  refine BitVec.eq_of_toNat_eq ?_
  rw [toNat_sign,toNat_components]
  omega

theorem pack_subnormal (s : Sign) (m : BitVec 52) (positive : 0 < m.toNat) {e : Int}
    (he : e = -1074) :
    UnpackedFloat.pack .binary64 (.finite s m.toNat e positive) =
      packComponents .binary64 s 0#11 m := by
  have hlog : m.toNat.log2+1 ≠ Format.binary64.mantissaBits := by
    have hlt := (Nat.log2_lt positive.ne').mpr m.isLt
    rw [show Format.binary64.mantissaBits = 53 from rfl]
    omega
  subst he
  rw [UnpackedFloat.pack,if_neg (by decide),if_neg hlog,BitVec.ofNat_toNat,BitVec.setWidth_eq]

theorem pack_normal (s : Sign) (exponent : BitVec 11) (m : BitVec 52)
    (positive : 0 < (1#1 ++ m).toNat) (hexponent : exponent ≠ -1#11) {e : Int}
    (he : e = exponent.toNat-1075) :
    UnpackedFloat.pack .binary64 (.finite s (1#1 ++ m).toNat e positive) =
      packComponents .binary64 s exponent m := by
  have hm : m.toNat < 2^52 := m.isLt
  have hlt : exponent.toNat < 2^11 := exponent.isLt
  have hlog : (1#1 ++ m).toNat.log2 = 52 := by
    rw [toNat_withLeading,Nat.log2_eq_iff (by omega)]
    omega
  have hbiased : (e+(Format.binary64.exponentBias : Nat)+(52 : Nat)).toNat = exponent.toNat := by
    rw [he,show Format.binary64.exponentBias = 1023 from rfl]
    omega
  have hfits : ¬2^11 ≤ exponent.toNat+1 := by
    intro hle
    refine hexponent (BitVec.eq_of_toNat_eq ?_)
    rw [show (-1#11).toNat = 2047 from rfl]
    omega
  have hmantissa : BitVec.ofNat 52 (1#1 ++ m).toNat = m := by
    refine BitVec.eq_of_toNat_eq ?_
    rw [BitVec.toNat_ofNat,toNat_withLeading]
    omega
  rw [UnpackedFloat.pack]
  simp only [hbiased,hlog,hmantissa]
  rw [if_neg hfits,if_pos (show 52+1 = Format.binary64.mantissaBits from rfl),BitVec.ofNat_toNat,BitVec.setWidth_eq]

theorem pack_neg_unpack (b : BitVec 64) (h : UnpackedFloat.unpack .binary64 b ≠ .notANumber) :
    UnpackedFloat.pack .binary64 (UnpackedFloat.unpack .binary64 b).neg =
      packComponents .binary64 (-Sign.ofBitVec (@unpackSign .binary64 b))
        (@unpackExponent .binary64 b) (@unpackMantissa .binary64 b) := by
  rw [UnpackedFloat.unpack] at h ⊢
  simp only at h ⊢
  split_ifs at h ⊢ with h₁ h₂ h₂ h₃
  · simp [UnpackedFloat.neg,UnpackedFloat.pack,packedInfinity,h₁,h₂]
  · simp at h
  · simp [UnpackedFloat.neg,UnpackedFloat.pack,packedZero,h₃,h₂]
  · rw [UnpackedFloat.neg,pack_subnormal,h₂]
    rw [h₂]
    rfl
  · exact pack_normal _ _ _ _ h₁ (by rw [show Format.binary64.exponentBias = 1023 from rfl]; omega)

theorem unpack_ne_notANumber {b : BitVec 64}
    (h : @unpackExponent .binary64 b ≠ -1#11) :
    UnpackedFloat.unpack .binary64 b ≠ .notANumber := by
  rw [UnpackedFloat.unpack]
  simp only
  split_ifs <;> simp_all

variable {x : Float}

def bits (x : Float) : BitVec 64 := x.toModel.toBits.toBitVec

theorem bits_injective {x y : Float} (h : bits x = bits y) : x = y := by
  obtain ⟨⟨⟨b⟩,hb⟩⟩ := x
  obtain ⟨⟨⟨c⟩,hc⟩⟩ := y
  obtain rfl : b = c := h
  rfl

theorem bits_neg (h : UnpackedFloat.unpack .binary64 (bits x) ≠ .notANumber) :
    bits (-x) = packComponents .binary64 (-Sign.ofBitVec (@unpackSign .binary64 (bits x)))
      (@unpackExponent .binary64 (bits x)) (@unpackMantissa .binary64 (bits x)) :=
  pack_neg_unpack (bits x) h

theorem isFinite_iff : x.isFinite = true ↔ @unpackExponent .binary64 (bits x) ≠ -1#11 := by
  change (UnpackedFloat.unpack .binary64 (bits x)).isFinite = true ↔ _
  rw [UnpackedFloat.unpack]
  simp only
  split_ifs <;> simp_all [UnpackedFloat.isFinite]

theorem neg_neg (h : x.isFinite = true) : - -x = x := by
  have hexponent := isFinite_iff.mp h
  have hbits := bits_neg (unpack_ne_notANumber hexponent)
  have hneg : UnpackedFloat.unpack .binary64 (bits (-x)) ≠ .notANumber := by
    refine unpack_ne_notANumber ?_
    rw [hbits,unpackExponent_packComponents]
    exact hexponent
  refine bits_injective ?_
  rw [bits_neg hneg,hbits,unpackSign_components,unpackExponent_packComponents,
    unpackMantissa_packComponents,ofBitVec_toBitVec]
  refine Eq.trans ?_ (components_unpack (bits x))
  cases Sign.ofBitVec (@unpackSign .binary64 (bits x)) <;> rfl

theorem isFinite_of_neg (h : (-x).isFinite = true) : x.isFinite = true := by
  by_cases hnan : UnpackedFloat.unpack .binary64 (bits x) = .notANumber
  · have hbits : bits (-x) = packedNaN .binary64 := by
      change UnpackedFloat.pack .binary64 (UnpackedFloat.unpack .binary64 (bits x)).neg = _
      rw [hnan]
      rfl
    rw [isFinite_iff,hbits] at h
    exact absurd (by decide) h
  · rw [isFinite_iff,bits_neg hnan,unpackExponent_packComponents] at h
    exact isFinite_iff.mpr h

theorem isFinite_iff_power :
    x.isFinite = true ↔ x.toBits.toNat/fractionUnit%2048 ≠ 2047 := by
  rw [isFinite_iff,Ne,← BitVec.toNat_inj,toNat_exponent]
  rfl

/-- The text of a finite number begins with a minus sign if its sign bit is set. -/
theorem exists_shape (h : x.isFinite = true) : ∃ b, shape x = .finite (signBit x) b := by
  have hpower := isFinite_iff_power.mp h
  rw [shape,Shape.ofBits]
  simp only [hpower,if_false]
  split_ifs
  · exact ⟨_,rfl⟩
  · exact ⟨_,rfl⟩

theorem shape_of_not_finite (h : x.isFinite = false) :
    shape x = .undefined ∨ ∃ negative, shape x = .infinite negative := by
  have hpower : x.toBits.toNat/fractionUnit%2048 = 2047 := by
    by_contra hne
    rw [isFinite_iff_power.mpr hne] at h
    cases h
  rw [shape,Shape.ofBits]
  simp only [hpower,if_true]
  split_ifs
  · exact .inr ⟨_,rfl⟩
  · exact .inl rfl

end Number
end NumericWorkbench
