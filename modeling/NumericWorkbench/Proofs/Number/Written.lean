import NumericWorkbench.Proofs.Number.Numeral
import NumericWorkbench.Proofs.Number.Shortest
/-! What the texts of finite numbers denote. Positional and scientific texts stand for the same decimal,
which is the shortest one or one of a given number of digits. -/
namespace NumericWorkbench
namespace Number

theorem ofDigits_digitsOf (n : ℕ) : ofDigits (digitsOf n) = n := Nat.ofDigitChars_ten_toDigits

theorem ofDigits_replicate (n : ℕ) : ofDigits (List.replicate n '0') = 0 := by
  rw [ofDigits,Nat.ofDigitChars_replicate_zero,mul_zero]

theorem digitsOf_ne_nil (n : ℕ) : digitsOf n ≠ [] := Nat.toDigits_ne_nil

section Texts
variable {ds : List Char}

theorem isMantissa_point {ds : List Char} (fs : List Char) (hds : ds ≠ []) (h : Digits (ds ++ fs)) :
    IsMantissa ['.'] (ds ++ '.'::fs) (ofDigits (ds ++ fs)/10^fs.length) := by
  rw [ofDigits_point,mul_div_cancel_right₀ _ (by positivity)]
  exact .point (by simp) (.inl hds) (fun c hc => h c (List.mem_append_left _ hc))
    fun c hc => h c (List.mem_append_right _ hc)

theorem isPower_written (power : ℤ) :
    IsPower ('e'::(sign (power < 0) ++ digitsOf power.natAbs)) power := by
  have hpower : (if decide (power < 0) = true then -(power.natAbs : ℤ) else power.natAbs) = power := by
    simp only [decide_eq_true_eq]
    split <;> omega
  have h : IsPower ('e'::(sign (power < 0) ++ digitsOf power.natAbs)) _ :=
    .whole (.inl rfl) (isSign_sign _) (digitsOf_ne_nil _) (digits_digitsOf _)
  rwa [ofDigits_digitsOf,hpower] at h

theorem denotes_withExponent (negative : Bool) (hne : ds ≠ []) (hds : Digits ds) (power : ℤ) :
    Denotes ['.'] (sign negative ++ withExponent ds power) negative
      (ofDigits ds*10^(power+1-ds.length)) := by
  match ds,hne with
  | [c],_ =>
    rw [List.length_singleton,Nat.cast_one,add_sub_cancel_right]
    exact .intro (isSign_sign negative) (.whole (by simp) hds) (isPower_written power)
  | c::f::fs,_ =>
    have hvalue : (ofDigits (c::f::fs) : ℚ)*10^(power+1-(c::f::fs).length) =
        ofDigits (c::f::fs)/10^(f::fs).length*10^power := by
      have hexponent : power+1-((c::f::fs).length : ℤ) = power-(f::fs).length := by
        push_cast [List.length_cons]
        ring
      rw [hexponent,zpow_sub₀ (by norm_num),zpow_natCast]
      ring
    rw [hvalue]
    exact .intro (isSign_sign negative) (isMantissa_point (f::fs) (List.cons_ne_nil c []) hds)
      (isPower_written power)

theorem denotes_scientific (negative : Bool) (d : Decimal) :
    Denotes ['.'] (sign negative ++ d.scientific) negative d.value := by
  have hexponent : ((digitsOf d.digits).length : ℤ)+d.exponent-1+1-(digitsOf d.digits).length =
      d.exponent := by ring
  have h := denotes_withExponent negative (digitsOf_ne_nil d.digits) (digits_digitsOf d.digits)
    ((digitsOf d.digits).length+d.exponent-1)
  rwa [ofDigits_digitsOf,hexponent] at h

theorem IsMantissa.denotes {points : List Char} {x : ℚ} (h : IsMantissa points ds x)
    (negative : Bool) : Denotes points (sign negative ++ ds) negative x := by
  have hdenotes := Denotes.intro (isSign_sign negative) h .none
  rwa [List.append_nil,zpow_zero,mul_one] at hdenotes

theorem Decimal.value_eq_div {d : Decimal} {n : ℕ} (h : d.exponent = -n) :
    d.value = d.digits/10^n := by
  rw [Decimal.value,h,zpow_neg,zpow_natCast,div_eq_mul_inv]

theorem isMantissa_positional (d : Decimal) : IsMantissa ['.'] (positional d) d.value := by
  have hne := digitsOf_ne_nil d.digits
  have hdigits := digits_digitsOf d.digits
  have hvalue := ofDigits_digitsOf d.digits
  unfold positional
  simp only
  generalize digitsOf d.digits = ds at hne hdigits hvalue
  split_ifs with hwhole hpoint
  · have hshift : d.value = ofDigits (ds ++ List.replicate d.exponent.toNat '0') := by
      rw [ofDigits_append,ofDigits_replicate,hvalue,List.length_replicate,add_zero,Nat.cast_mul,
        Nat.cast_pow,Nat.cast_ofNat,← zpow_natCast,Int.toNat_of_nonneg hwhole,mul_comm,Decimal.value]
    rw [hshift]
    exact .whole (by simp [hne]) (hdigits.append (digits_replicate _))
  · have hfraction : d.exponent = -(ds.drop (ds.length+d.exponent).toNat).length := by
      rw [List.length_drop]
      omega
    have hfront : ds.take (ds.length+d.exponent).toNat ≠ [] := by
      rw [Ne,List.take_eq_nil_iff,not_or]
      exact ⟨by omega,hne⟩
    rw [Decimal.value_eq_div hfraction,← hvalue]
    have h := isMantissa_point (ds.drop (ds.length+d.exponent).toNat) hfront
      (by rwa [List.take_append_drop])
    rwa [List.take_append_drop] at h
  · have hfraction : d.exponent =
        -(List.replicate (-(ds.length+d.exponent)).toNat '0' ++ ds).length := by
      rw [List.length_append,List.length_replicate]
      omega
    have hzeros : ofDigits (['0'] ++ (List.replicate (-(ds.length+d.exponent)).toNat '0' ++ ds)) =
        ofDigits ds := by
      have hzero : ofDigits ['0'] = 0 := rfl
      rw [ofDigits_append,ofDigits_append,ofDigits_replicate,hzero,mul_zero,mul_zero,zero_add,zero_add]
    rw [Decimal.value_eq_div hfraction,← hvalue,← hzeros]
    exact isMantissa_point _ (List.cons_ne_nil '0' [])
      ((digits_replicate 1).append ((digits_replicate _).append hdigits))

end Texts

section Numbers
variable {x : Float}

theorem rounds_self {m : ℚ} (h : x.isFinite = true)
    (hvalue : value x = signed (signBit x) (nearest m)) : Rounds x (signBit x) m := by
  refine ⟨iff_of_true h ?_,fun _ => hvalue,fun _ => rfl⟩
  have hlt := abs_value_lt h
  rw [hvalue,abs_signed] at hlt
  exact (le_abs_self _).trans_lt hlt

theorem nearest_written {b : Binary} (hb : b.IsCanonical) :
    nearest (if b.mantissa = 0 then ⟨0,0⟩ else shortest b : Decimal).value = b.value := by
  split
  · rename_i hzero
    rw [Decimal.value,Binary.value,hzero,Nat.cast_zero,zero_mul,zero_mul,nearest_zero]
  · rename_i hne
    exact nearest_shortest hb (Nat.pos_of_ne_zero hne)

theorem exists_denotes_plain (h : x.isFinite = true) :
    ∃ m, Denotes ['.'] (plainChars x) (signBit x) m ∧ Rounds x (signBit x) m := by
  obtain ⟨b,hshape,hb,hvalue⟩ := exists_binary h
  rw [← nearest_written hb] at hvalue
  refine ⟨_,?_,rounds_self h hvalue⟩
  rw [plainChars,written,hshape]
  simp only
  split
  · have hzero : (⟨0,0⟩ : Decimal).value = ofDigits ['0'] := by
      rw [Decimal.value,Nat.cast_zero,zero_mul]
      rfl
    rw [hzero]
    exact (IsMantissa.whole (by simp) (digits_replicate 1)).denotes _
  · exact (isMantissa_positional _).denotes _

theorem exists_denotes_scientific (h : x.isFinite = true) :
    ∃ m, Denotes ['.'] (scientificChars x) (signBit x) m ∧ Rounds x (signBit x) m := by
  obtain ⟨b,hshape,hb,hvalue⟩ := exists_binary h
  rw [← nearest_written hb] at hvalue
  refine ⟨_,?_,rounds_self h hvalue⟩
  rw [scientificChars,written,hshape]
  exact denotes_scientific _ _

/-- Both texts of a finite number are read back as it, the sign of a zero included. -/
theorem read_written (h : x.isFinite = true) :
    read (plainChars x) = some x ∧ read (scientificChars x) = some x := by
  have reads {cs : List Char} {m : ℚ} (hcs : Denotes ['.'] cs (signBit x) m)
      (hx : Rounds x (signBit x) m) : read cs = some x := by
    obtain ⟨z,hread,hz⟩ := hcs.exists_read
    rw [hread,hz.unique hx h]
  obtain ⟨m,hplain,hrounds⟩ := exists_denotes_plain h
  obtain ⟨m',hscientific,hrounds'⟩ := exists_denotes_scientific h
  exact ⟨reads hplain hrounds,reads hscientific hrounds'⟩

/-- The text with a fixed number of places denotes the significant digits. -/
theorem denotes_scientificTo (places : ℕ) (h : x.isFinite = true) :
    Denotes ['.'] (scientificToChars places x) (signBit x) (significant (places+1) |value x|) := by
  obtain ⟨b,hshape,hb,hvalue⟩ := exists_binary h
  rw [hvalue,abs_signed,abs_of_nonneg b.value_nonneg,scientificToChars,written,hshape]
  simp only
  split
  · rename_i hzero
    have hdenotes := denotes_withExponent (signBit x) (by simp)
      (digits_replicate (places+1)) 0
    rw [ofDigits_replicate,Nat.cast_zero,zero_mul] at hdenotes
    rwa [Binary.value,hzero,Nat.cast_zero,zero_mul,significant_zero]
  · rename_i hne
    rw [← value_roundTo (Nat.succ_pos places) (Nat.pos_of_ne_zero hne)]
    exact denotes_scientific _ _

end Numbers

end Number
end NumericWorkbench
