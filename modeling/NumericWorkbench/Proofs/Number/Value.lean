import NumericWorkbench.Proofs.Number.Operations
import NumericWorkbench.Proofs.Number.Sign
/-! The values of floating-point numbers. An operation on finite numbers gives the nearest number of
the grid, and an infinity where that is too large. -/
namespace NumericWorkbench
namespace Number
open Float.Model Float.Model.UnpackedFloat

section Packing

theorem withLeading_pos (m : BitVec 52) : 0 < (1#1 ++ m).toNat := by
  rw [toNat_withLeading]
  omega

theorem unpack_components (s : Sign) (exponent : BitVec 11) (mantissa : BitVec 52) :
    unpack .binary64 (packComponents .binary64 s exponent mantissa) =
      if exponent = -1#11 then if mantissa = 0#52 then .infinity s else .notANumber
      else if exponent = 0#11 then
        if h : 0 < mantissa.toNat then .finite s mantissa.toNat (-1074) h else .zero s
      else .finite s (1#1 ++ mantissa).toNat (exponent.toNat-1075) (withLeading_pos mantissa) := by
  have hzero : mantissa = 0#52 ↔ ¬0 < mantissa.toNat := by
    rw [Nat.pos_iff_ne_zero,not_not,← BitVec.toNat_inj]
    rfl
  rw [UnpackedFloat.unpack]
  simp only [unpackExponent_packComponents,unpackMantissa_packComponents,unpackSign_components,
    ofBitVec_toBitVec]
  by_cases hinfinite : exponent = -1#11
  · simp [hinfinite]
  by_cases hsubnormal : exponent = 0#11
  · subst hsubnormal
    rw [if_neg hinfinite,if_pos rfl,if_neg hinfinite,if_pos rfl]
    by_cases h : mantissa = 0#52
    · rw [dif_pos h,dif_neg (hzero.mp h)]
    · rw [dif_neg h,dif_pos (not_not.mp (mt hzero.mpr h))]
      rfl
  · rw [if_neg hinfinite,if_neg hsubnormal,if_neg hinfinite,if_neg hsubnormal]
    rfl

theorem canonical_unpack {b : BitVec 64} (h : (unpack .binary64 b).isFinite = true) :
    Canonical (unpack .binary64 b) ∧ |valueOf (unpack .binary64 b)| < 2^(1024 : ℤ) := by
  have bound {s : Sign} {m : ℕ} {e : ℤ} (hm : 0 < m) (hlt : m < 2^53) (he : e ≤ 971) :
      |valueOf (.finite s m e hm)| < 2^(1024 : ℤ) := by
    have hnonneg : (0 : ℚ) ≤ m*2^e := mul_nonneg (Nat.cast_nonneg m) (two_zpow_pos e).le
    rw [valueOf_finite,abs_withSign,abs_of_nonneg hnonneg]
    calc (m : ℚ)*2^e < (2^53 : ℕ)*2^e :=
          mul_lt_mul_of_pos_right (Nat.cast_lt.mpr hlt) (two_zpow_pos e)
      _ = 2^(53+e) := by
          rw [two_zpow_add]
          norm_cast
      _ ≤ 2^(1024 : ℤ) := zpow_le_zpow_right₀ one_le_two (by omega)
  rw [← components_unpack b,unpack_components] at h ⊢
  have hmantissa := (@unpackMantissa .binary64 b).isLt
  have hexponent := (@unpackExponent .binary64 b).isLt
  generalize Sign.ofBitVec (@unpackSign .binary64 b) = s at *
  generalize @unpackMantissa .binary64 b = mantissa at *
  generalize @unpackExponent .binary64 b = exponent at *
  change mantissa.toNat < 2^52 at hmantissa
  change exponent.toNat < 2^11 at hexponent
  split_ifs at h ⊢ with hinfinite hnan hsubnormal hpos
  · simp [UnpackedFloat.isFinite] at h
  · simp [UnpackedFloat.isFinite] at h
  · exact ⟨.finite (by omega) le_rfl (.inr rfl),bound hpos (by omega) (by norm_num)⟩
  · exact ⟨.zero s,by simp [valueOf]⟩
  · have hleading := toNat_withLeading mantissa
    have hne : exponent.toNat ≠ 0 := fun h => hsubnormal (BitVec.eq_of_toNat_eq h)
    have hne' : exponent.toNat ≠ 2047 := fun h => hinfinite (BitVec.eq_of_toNat_eq h)
    exact ⟨.finite (by omega) (by omega) (.inl (by omega)),bound _ (by omega) (by omega)⟩

theorem unpack_pack_normal (s : Sign) {m : ℕ} {e : ℤ} (hm : 0 < m) (hnormal : 2^52 ≤ m)
    (hlt : m < 2^53) (he : -1074 ≤ e) (hle : e ≤ 971) :
    unpack .binary64 (pack .binary64 (.finite s m e hm)) = .finite s m e hm := by
  have hmantissa : (1#1 ++ BitVec.ofNat 52 m).toNat = m := by
    rw [toNat_withLeading,BitVec.toNat_ofNat]
    omega
  have hbits : (BitVec.ofNat 11 (e+1075).toNat).toNat = (e+1075).toNat := by
    rw [BitVec.toNat_ofNat]
    omega
  have hne : BitVec.ofNat 11 (e+1075).toNat ≠ -1#11 := by
    intro h
    rw [h,show (-1#11).toNat = 2047 from rfl] at hbits
    omega
  have hne' : BitVec.ofNat 11 (e+1075).toNat ≠ 0#11 := by
    intro h
    rw [h,show (0#11).toNat = 0 from rfl] at hbits
    omega
  have hpack := pack_normal s (BitVec.ofNat 11 (e+1075).toNat) (BitVec.ofNat 52 m)
    (withLeading_pos _) hne (e := e) (by omega)
  simp only [hmantissa] at hpack
  rw [hpack,unpack_components,if_neg hne,if_neg hne']
  simp only [hmantissa,hbits]
  congr 1
  omega

theorem unpack_pack_subnormal (s : Sign) {m : ℕ} (hm : 0 < m) (hlt : m < 2^52) :
    unpack .binary64 (pack .binary64 (.finite s m (-1074) hm)) = .finite s m (-1074) hm := by
  have hmantissa : (BitVec.ofNat 52 m).toNat = m := by
    rw [BitVec.toNat_ofNat]
    omega
  have hpack := pack_subnormal s (BitVec.ofNat 52 m) (by omega) (e := -1074) rfl
  simp only [hmantissa] at hpack
  rw [hpack,unpack_components,if_neg (by decide),if_pos rfl,dif_pos (by omega)]
  simp only [hmantissa]

theorem unpack_pack_infinity (s : Sign) :
    unpack .binary64 (pack .binary64 (.infinity s)) = .infinity s := by
  rw [UnpackedFloat.pack,packedInfinity,unpack_components,if_pos rfl]
  rfl

theorem pack_large (s : Sign) {m : ℕ} {e : ℤ} (hm : 0 < m) (h : 971 < e) :
    pack .binary64 (.finite s m e hm) = packedInfinity .binary64 s := by
  have hexponent : (2 : ℕ)^Format.binary64.exponentBits ≤ (e+(Format.binary64.exponentBias : ℕ)+
      (Format.binary64.mantissaBitsWithoutImplicit : ℕ)).toNat+1 := by
    rw [show Format.binary64.exponentBias = 1023 from rfl]
    change 2^11 ≤ (e+(1023 : ℕ)+(52 : ℕ)).toNat+1
    omega
  rw [UnpackedFloat.pack]
  simp only [if_pos hexponent]

/-- A canonical number is packed without loss, or as an infinity if it is too large. -/
theorem unpack_pack_finite {s : Sign} {m : ℕ} {e : ℤ} (hm : 0 < m) (hlt : m < 2^53)
    (he : -1074 ≤ e) (hdigits : 2^52 ≤ m ∨ e = -1074) :
    unpack .binary64 (pack .binary64 (.finite s m e hm)) =
      if e ≤ 971 then .finite s m e hm else .infinity s := by
  by_cases hle : e ≤ 971
  · rw [if_pos hle]
    by_cases hnormal : 2^52 ≤ m
    · exact unpack_pack_normal s hm hnormal hlt he hle
    · obtain rfl := hdigits.resolve_left hnormal
      exact unpack_pack_subnormal s hm (not_le.mp hnormal)
  · rw [if_neg hle,pack_large s hm (not_le.mp hle)]
    exact unpack_pack_infinity s

end Packing

def parts (x : Float) : UnpackedFloat := unpack .binary64 (bits x)

/-- The value of a finite number. -/
def value (x : Float) : ℚ := valueOf (parts x)

section Values
variable {x y : Float}

theorem canonical_parts (h : x.isFinite = true) : Canonical (parts x) := (canonical_unpack h).1

theorem abs_value_lt (h : x.isFinite = true) : |value x| < 2^(1024 : ℤ) := (canonical_unpack h).2

theorem isGrid_value (h : x.isFinite = true) : IsGrid (value x) := (canonical_parts h).isGrid

theorem value_zero : value 0.0 = 0 := rfl

theorem value_two : value 2.0 = 2 := by
  have hparts : parts 2.0 = .finite .positive (2^52) (-51) (by norm_num) := rfl
  rw [value,hparts]
  norm_num [valueOf]

theorem lt_iff (hx : x.isFinite = true) (hy : y.isFinite = true) :
    x < y ↔ value x < value y := by
  change decide (((parts x).compare (parts y) == some .lt) = true) = true ↔ _
  rw [decide_eq_true_iff,compare_eq (canonical_parts hx) (canonical_parts hy),beq_iff_eq,Option.some.injEq]
  exact compare_lt_iff_lt

theorem le_iff (hx : x.isFinite = true) (hy : y.isFinite = true) :
    x ≤ y ↔ value x ≤ value y := by
  change decide (((parts x).compare (parts y)).any (·.isLE) = true) = true ↔ _
  rw [decide_eq_true_iff,compare_eq (canonical_parts hx) (canonical_parts hy)]
  exact Std.LawfulBCmp.isLE_iff_le

end Values

/-- What an operation gives if its exact result is `x`. -/
structure IsNearest (z : Float) (x : ℚ) : Prop where
  isFinite_iff : z.isFinite = true ↔ |nearest x| < 2^(1024 : ℤ)
  value_eq : z.isFinite = true → value z = nearest x
  neg_iff : z < 0.0 ↔ nearest x < 0
  nonneg_iff : 0.0 ≤ z ↔ 0 ≤ nearest x

section Results
variable {u : UnpackedFloat} {z : Float} {x : ℚ}

theorem isFinite_eq_parts (z : Float) : z.isFinite = (parts z).isFinite := rfl

theorem parts_pack (h : Canonical u) :
    (parts (.ofModel (.pack u)) = u ∧ |valueOf u| < 2^(1024 : ℤ)) ∨
    ∃ s y, parts (.ofModel (.pack u)) = .infinity s ∧ valueOf u = withSign s y ∧
      2^(1024 : ℤ) ≤ y := by
  cases h with
  | zero s =>
    have hunpack : unpack .binary64 (packedZero .binary64 s) = .zero s := unpack_packedZero
    exact .inl ⟨hunpack,by simp [valueOf]⟩
  | @finite s m e hm hlt hle hdigits =>
    have hunpack := unpack_pack_finite (s := s) hm hlt hle hdigits
    split_ifs at hunpack with hfits
    · have hbound := canonical_unpack (b := UnpackedFloat.pack .binary64 (.finite s m e hm))
        (by rw [hunpack]; rfl)
      rw [hunpack] at hbound
      exact .inl ⟨hunpack,hbound.2⟩
    · refine .inr ⟨s,m*2^e,hunpack,valueOf_finite s m e hm,?_⟩
      have hm' : ((2^52 : ℕ) : ℚ) ≤ m := Nat.cast_le.mpr (hdigits.resolve_right (by omega))
      calc (2 : ℚ)^(1024 : ℤ) ≤ 2^(52+e) := zpow_le_zpow_right₀ one_le_two (by omega)
        _ = (2^52 : ℕ)*2^e := by
            rw [two_zpow_add]
            norm_cast
        _ ≤ m*2^e := mul_le_mul_of_nonneg_right hm' (two_zpow_pos e).le

theorem isFinite_zero : Float.isFinite 0.0 = true := rfl

theorem sign_of_infinity {s : Sign} (h : parts z = .infinity s) :
    z.isFinite = false ∧ (z < 0.0 ↔ s = .negative) ∧ (0.0 ≤ z ↔ s = .positive) := by
  have hlt : z < 0.0 ↔ decide (((parts z).compare (parts 0.0) == some .lt) = true) = true := .rfl
  have hle : 0.0 ≤ z ↔
      decide (((parts 0.0).compare (parts z)).any (·.isLE) = true) = true := .rfl
  rw [isFinite_eq_parts,hlt,hle,h]
  cases s
  case negative => exact ⟨rfl,iff_of_true rfl rfl,iff_of_false (by decide) nofun⟩
  case positive => exact ⟨rfl,iff_of_false (by decide) nofun,iff_of_true rfl rfl⟩

theorem IsRounded.isNearest (h : IsRounded u x) : IsNearest (Float.ofModel (.pack u)) x := by
  rcases parts_pack h.canonical with ⟨hparts,hlt⟩ | ⟨s,y,hparts,hvalue,hlarge⟩
  · have hfinite : Float.isFinite (.ofModel (.pack u)) = true := by
      rw [isFinite_eq_parts,hparts]
      cases h.canonical <;> rfl
    have hvalue : Number.value (.ofModel (.pack u)) = nearest x := by
      rw [Number.value,hparts]
      exact h.value
    rw [h.value] at hlt
    refine ⟨iff_of_true hfinite hlt,fun _ => hvalue,?_,?_⟩
    · rw [lt_iff hfinite isFinite_zero,hvalue,value_zero]
    · rw [le_iff isFinite_zero hfinite,hvalue,value_zero]
  · obtain ⟨hinfinite,hneg,hnonneg⟩ := sign_of_infinity hparts
    have hpos : 0 < y := (two_zpow_pos 1024).trans_le hlarge
    rw [h.value] at hvalue
    have habs : |nearest x| = y := by rw [hvalue,abs_withSign,abs_of_pos hpos]
    refine ⟨?_,fun hfinite => ?_,?_,?_⟩
    · rw [hinfinite,habs]
      exact iff_of_false Bool.false_ne_true hlarge.not_gt
    · rw [hinfinite] at hfinite
      cases hfinite
    · rw [hneg,hvalue]
      cases s
      case negative => exact iff_of_true rfl (neg_lt_zero.mpr hpos)
      case positive => exact iff_of_false nofun hpos.not_gt
    · rw [hnonneg,hvalue]
      cases s
      case negative => exact iff_of_false nofun (neg_lt_zero.mpr hpos).not_ge
      case positive => exact iff_of_true rfl hpos.le

end Results

section Arithmetic
variable {x y : Float}

theorem isNearest_add (hx : x.isFinite = true) (hy : y.isFinite = true) :
    IsNearest (x+y) (value x+value y) :=
  (isRounded_add (canonical_parts hx) (canonical_parts hy)).isNearest

theorem isNearest_mul (hx : x.isFinite = true) (hy : y.isFinite = true) :
    IsNearest (x*y) (value x*value y) :=
  (isRounded_mul (canonical_parts hx) (canonical_parts hy)).isNearest

theorem isNearest_div (hx : x.isFinite = true) (hy : y.isFinite = true) (hne : value y ≠ 0) :
    IsNearest (x/y) (value x/value y) :=
  (isRounded_div (canonical_parts hx) (canonical_parts hy) hne).isNearest

theorem Canonical.isRounded_abs {u : UnpackedFloat} (h : Canonical u) :
    IsRounded u.abs |valueOf u| := by
  have habs : Canonical u.abs ∧ valueOf u.abs = |valueOf u| := by
    cases h with
    | zero s => exact ⟨.zero _,abs_zero.symm⟩
    | @finite s m e hm hlt hle hdigits =>
      have hnonneg : (0 : ℚ) ≤ m*2^e := mul_nonneg (Nat.cast_nonneg m) (two_zpow_pos e).le
      refine ⟨.finite hlt hle hdigits,?_⟩
      rw [valueOf_finite,abs_withSign,abs_of_nonneg hnonneg]
      rfl
  rw [← habs.2]
  exact habs.1.isRounded

theorem isFinite_abs (h : x.isFinite = true) : x.abs.isFinite = true ∧ value x.abs = |value x| := by
  have hnearest : IsNearest x.abs |value x| := (canonical_parts h).isRounded_abs.isNearest
  have hgrid : nearest |value x| = |value x| := by
    obtain ⟨m,e,hm,he,hvalue⟩ := isGrid_value h
    exact IsGrid.nearest_eq ⟨m,e,hm,he,by rw [abs_abs,hvalue]⟩
  have hfinite : x.abs.isFinite = true := by
    rw [hnearest.isFinite_iff,hgrid,abs_abs]
    exact abs_value_lt h
  exact ⟨hfinite,(hnearest.value_eq hfinite).trans hgrid⟩

theorem div_of_not_finite {u v : UnpackedFloat} (hu : u.isFinite = false)
    (hv : v.isFinite = true) :
    (∃ s, u.div .binary64 v = .infinity s) ∨ u.div .binary64 v = .notANumber := by
  cases u with
  | zero s => cases hu
  | finite s m e hm => cases hu
  | notANumber => exact .inr rfl
  | infinity s =>
    cases v with
    | notANumber => cases hv
    | infinity t => cases hv
    | zero t => exact .inl ⟨_,rfl⟩
    | finite t n d hn => exact .inl ⟨_,rfl⟩

theorem isFinite_of_div (hy : y.isFinite = true) (h : (x/y).isFinite = true) :
    x.isFinite = true := by
  have hquotient : (unpack .binary64 (UnpackedFloat.pack .binary64
    ((parts x).div .binary64 (parts y)))).isFinite = true := h
  by_contra hx
  rcases div_of_not_finite (u := parts x) (v := parts y) (Bool.eq_false_iff.mpr hx) hy with ⟨s,hdiv⟩ | hdiv
  · rw [hdiv,unpack_pack_infinity] at hquotient
    cases hquotient
  · have hnan : unpack .binary64 (UnpackedFloat.pack .binary64 .notANumber) = .notANumber :=
      unpack_packedNaN
    rw [hdiv,hnan] at hquotient
    cases hquotient

end Arithmetic

end Number
end NumericWorkbench
