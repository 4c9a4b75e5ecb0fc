import NumericWorkbench.Proofs.Number.Numeral
/-! Numbers as people type them. What is accepted is exactly what denotes a number that is not too
large, and the answer is the nearest number there is. -/
namespace NumericWorkbench
namespace Number
open Text

def toPoint (c : Char) : Char := if c = ',' then '.' else c

/-- A number with blanks around it, and with a point or a comma in it. -/
def Types (cs : List Char) (negative : Bool) (x : ℚ) : Prop :=
  ∃ front body back, cs = front ++ (body ++ back) ∧ (∀ c ∈ front, isBlank c = true) ∧
    (∀ c ∈ back, isBlank c = true) ∧ Denotes [',','.'] body negative x

/-- Characters of numbers other than the separators. -/
def Inner (cs : List Char) : Prop := ∀ c ∈ cs, isTyped c = true ∧ isSeparator c = false

section Characters
variable {cs ds : List Char} {c : Char} {negative : Bool} {x : ℚ} {e : ℤ}

theorem isSeparator_iff : isSeparator c = true ↔ c = ',' ∨ c = '.' := by simp [isSeparator]

theorem Inner.append (hcs : Inner cs) (hds : Inner ds) : Inner (cs ++ ds) :=
  List.forall_mem_append.mpr ⟨hcs,hds⟩

theorem Digits.inner (h : Digits ds) : Inner ds := by
  intro c hc
  have hdigit := h c hc
  refine ⟨by simp [isTyped,hdigit],Bool.eq_false_iff.mpr fun hsep => ?_⟩
  rcases isSeparator_iff.mp hsep with rfl | rfl <;> cases hdigit

theorem IsSign.inner (h : IsSign cs negative) : Inner cs := by
  cases h <;> simp [Inner] <;> decide

theorem IsPower.inner (h : IsPower cs e) : Inner cs := by
  cases h with
  | none => simp [Inner]
  | whole hc hsign _ hdigits =>
    refine List.forall_mem_cons.mpr ⟨?_,hsign.inner.append hdigits.inner⟩
    rcases hc with rfl | rfl <;> decide

theorem Inner.map_toPoint_iff (h : Inner ds) : cs.map toPoint = ds ↔ cs = ds := by
  have fixed {c : Char} (hc : toPoint c ∈ ds ∨ c ∈ ds) : toPoint c = c := by
    rw [toPoint]
    split
    · rename_i hcomma
      subst hcomma
      rcases hc with hc | hc <;> cases (h _ hc).2
    · rfl
  constructor
  · rintro rfl
    exact (List.map_id cs).symm.trans
      (List.map_congr_left fun c hc => (fixed (.inl (List.mem_map_of_mem hc))).symm)
  · rintro rfl
    exact (List.map_congr_left fun c hc => fixed (.inr hc)).trans (List.map_id cs)

theorem Inner.map_toPoint (h : Inner ds) : ds.map toPoint = ds := h.map_toPoint_iff.mpr rfl

theorem Inner.countP (h : Inner ds) : ds.countP isSeparator = 0 :=
  List.countP_eq_zero.mpr fun c hc => by simp [(h c hc).2]

theorem isMantissa_map_toPoint :
    IsMantissa ['.'] (cs.map toPoint) x ↔ IsMantissa [',','.'] cs x := by
  constructor
  · intro h
    generalize hmap : cs.map toPoint = ds at h
    cases h with
    | whole hne hdigits =>
      rw [hdigits.inner.map_toPoint_iff] at hmap
      subst hmap
      exact .whole hne hdigits
    | point hp hsome hds hfs =>
      obtain ⟨front,back,rfl,hfront,hback⟩ := List.map_eq_append_iff.mp hmap
      obtain ⟨c,tail,rfl,hc,htail⟩ := List.map_eq_cons_iff.mp hback
      rw [hds.inner.map_toPoint_iff] at hfront
      rw [hfs.inner.map_toPoint_iff] at htail
      subst hfront htail
      refine .point ?_ hsome hds hfs
      rw [List.mem_singleton.mp hp,toPoint] at hc
      split at hc <;> simp_all
  · intro h
    cases h with
    | whole hne hdigits =>
      rw [hdigits.inner.map_toPoint]
      exact .whole hne hdigits
    | point hp hsome hds hfs =>
      rw [List.map_append,List.map_cons,hds.inner.map_toPoint,hfs.inner.map_toPoint]
      refine .point ?_ hsome hds hfs
      rcases List.mem_pair.mp hp with rfl | rfl <;> decide

theorem denotes_map_toPoint :
    Denotes ['.'] (cs.map toPoint) negative x ↔ Denotes [',','.'] cs negative x := by
  constructor
  · intro h
    generalize hmap : cs.map toPoint = ds at h
    obtain ⟨hsign,hmantissa,hpower⟩ := h
    obtain ⟨front,rest,rfl,hfront,hrest⟩ := List.map_eq_append_iff.mp hmap
    obtain ⟨middle,back,rfl,rfl,hback⟩ := List.map_eq_append_iff.mp hrest
    rw [hsign.inner.map_toPoint_iff] at hfront
    rw [hpower.inner.map_toPoint_iff] at hback
    subst hfront hback
    exact .intro hsign (isMantissa_map_toPoint.mp hmantissa) hpower
  · rintro ⟨hsign,hmantissa,hpower⟩
    rw [List.map_append,List.map_append,hsign.inner.map_toPoint,hpower.inner.map_toPoint]
    exact .intro hsign (isMantissa_map_toPoint.mpr hmantissa) hpower

theorem IsMantissa.typed (h : IsMantissa [',','.'] cs x) :
    cs ≠ [] ∧ (∀ c ∈ cs, isTyped c = true) ∧ cs.countP isSeparator ≤ 1 := by
  cases h with
  | whole hne hdigits =>
    exact ⟨hne,fun c hc => (hdigits.inner c hc).1,by simp [hdigits.inner.countP]⟩
  | @point p ds fs hp _ hds hfs =>
    have htyped : isTyped p = true ∧ isSeparator p = true := by
      rcases List.mem_pair.mp hp with rfl | rfl <;> decide
    refine ⟨by simp,List.forall_mem_append.mpr ⟨fun c hc => (hds.inner c hc).1,
      List.forall_mem_cons.mpr ⟨htyped.1,fun c hc => (hfs.inner c hc).1⟩⟩,?_⟩
    rw [List.countP_append,List.countP_cons_of_pos htyped.2,hds.inner.countP,hfs.inner.countP]

theorem Denotes.typed (h : Denotes [',','.'] cs negative x) :
    cs ≠ [] ∧ (∀ c ∈ cs, isTyped c = true) ∧ cs.countP isSeparator ≤ 1 := by
  obtain ⟨hsign,hmantissa,hpower⟩ := h
  obtain ⟨hne,htyped,hcount⟩ := hmantissa.typed
  refine ⟨by simp [hne],List.forall_mem_append.mpr ⟨fun c hc => (hsign.inner c hc).1,
    List.forall_mem_append.mpr ⟨htyped,fun c hc => (hpower.inner c hc).1⟩⟩,?_⟩
  rw [List.countP_append,List.countP_append,hsign.inner.countP,hpower.inner.countP]
  omega

end Characters

section Reading
variable {cs : List Char} {negative : Bool} {x : ℚ} {z : Float}

theorem isBlank_of_isTyped {c : Char} (h : isTyped c = true) : isBlank c = false := by
  simp only [isTyped,isSeparator,Bool.or_eq_true,beq_iff_eq] at h
  rcases h with ((((h | h | h) | h) | h) | h) | h
  · simp only [Char.isDigit,Bool.and_eq_true,decide_eq_true_eq,UInt32.le_iff_toNat_le] at h
    have hlow : 48 ≤ c.toNat := h.1
    have hhigh : c.toNat ≤ 57 := h.2
    simp only [isBlank,Bool.or_eq_false_iff,Bool.and_eq_false_iff,beq_eq_false_iff_ne,
      decide_eq_false_iff_not]
    omega
  all_goals
    subst h
    decide

theorem readReal_eq (cs : List Char) : readReal cs =
    if (trim cs).isEmpty || 1 < (trim cs).countP isSeparator || !(trim cs).all isTyped then none
    else (read ((trim cs).map toPoint)).filter Float.isFinite := rfl

theorem types_iff : Types cs negative x ↔ Denotes [',','.'] (trim cs) negative x := by
  constructor
  · rintro ⟨front,body,back,rfl,hfront,hback,h⟩
    obtain ⟨hne,htyped,-⟩ := h.typed
    rwa [trim_exact hfront hback (fun c hc => isBlank_of_isTyped (htyped c hc)) hne]
  · intro h
    obtain ⟨front,back,hcs,hfront,hback⟩ := exists_trim cs
    exact ⟨front,trim cs,back,hcs,hfront,hback,h⟩

theorem Types.exists_read (h : Types cs negative x) :
    ∃ z, readReal cs = (some z).filter Float.isFinite ∧ Rounds z negative x := by
  have hdenotes := types_iff.mp h
  obtain ⟨hne,htyped,hcount⟩ := hdenotes.typed
  obtain ⟨z,hread,hrounds⟩ := (denotes_map_toPoint.mpr hdenotes).exists_read
  refine ⟨z,?_,hrounds⟩
  rw [readReal_eq,hread,if_neg]
  simpa [hne,hcount] using htyped

theorem exists_types_of_readReal (h : readReal cs = some z) :
    z.isFinite = true ∧ ∃ negative x, Types cs negative x := by
  rw [readReal_eq] at h
  split at h
  · cases h
  rename_i hchecks
  obtain ⟨hread,hfinite⟩ := Option.filter_eq_some_iff.mp h
  refine ⟨hfinite,?_⟩
  simp only [Bool.or_eq_true,not_or,Bool.not_eq_true',Bool.not_eq_false,List.all_eq_true] at hchecks
  have htyped : ∀ c ∈ (trim cs).map toPoint, isTyped c = true := by
    refine List.forall_mem_map.mpr fun c hc => ?_
    rw [toPoint]
    split
    · rfl
    · exact hchecks.2 c hc
  obtain ⟨negative,x,hdenotes⟩ := exists_denotes_of_read htyped hread
  exact ⟨negative,x,types_iff.mpr (denotes_map_toPoint.mp hdenotes)⟩

theorem readReal_eq_some_iff : readReal cs = some z ↔
    ∃ negative x, Types cs negative x ∧ z.isFinite = true ∧ Rounds z negative x := by
  constructor
  · intro h
    obtain ⟨hfinite,negative,x,htypes⟩ := exists_types_of_readReal h
    obtain ⟨y,hread,hrounds⟩ := htypes.exists_read
    rw [h] at hread
    obtain ⟨hy,-⟩ := Option.filter_eq_some_iff.mp hread.symm
    cases hy
    exact ⟨negative,x,htypes,hfinite,hrounds⟩
  · rintro ⟨negative,x,htypes,hfinite,hrounds⟩
    obtain ⟨y,hread,hy⟩ := htypes.exists_read
    rw [hread,hy.unique hrounds hfinite]
    simp [hfinite]

theorem readReal_map_toPoint (cs : List Char) : readReal (cs.map toPoint) = readReal cs := by
  have hcomma : (',' : Char) ≠ '.' := by decide
  have blank (c : Char) : isBlank (toPoint c) = isBlank c := by
    rw [toPoint]
    split
    · rename_i hc
      subst hc
      decide
    · rfl
  have separator : isSeparator ∘ toPoint = isSeparator := by
    funext c
    by_cases hc : c = ',' <;> simp [toPoint,hc,isSeparator]
  have typed : isTyped ∘ toPoint = isTyped := by
    funext c
    by_cases hc : c = ',' <;> simp [toPoint,hc,isTyped,isSeparator]
  have twice : toPoint ∘ toPoint = toPoint := by
    funext c
    by_cases hc : c = ',' <;> simp [toPoint,hc]
  rw [readReal_eq,readReal_eq,trim_map blank,List.countP_map,List.all_map,List.map_map,separator,
    typed,twice,List.isEmpty_map]

/-- A text is read exactly if it is a number with blanks around it that does not round to an
infinity, and the answer is what it rounds to, with its sign even if it is a zero. No answer is infinite
or undefined, and commas are as good as points. -/
theorem readReal_types (cs : List Char) :
    (∀ z, readReal cs = some z ↔ ∃ negative x, Types cs negative x ∧ nearest x < 2^(1024 : ℤ) ∧
      z.isFinite = true ∧ value z = signed negative (nearest x) ∧ signBit z = negative) ∧
    (∀ negative x, Types cs negative x → nearest x < 2^(1024 : ℤ) → ∃ z, readReal cs = some z) ∧
    (∀ z, readReal cs = some z → z.isNaN = false ∧ z.isInf = false) ∧
    readReal (cs.map toPoint) = readReal cs := by
  refine ⟨fun z => ?_,fun negative x htypes hlt => ?_,fun z h => ?_,readReal_map_toPoint cs⟩
  · rw [readReal_eq_some_iff]
    constructor
    · rintro ⟨negative,x,htypes,hfinite,hrounds⟩
      exact ⟨negative,x,htypes,hrounds.isFinite_iff.mp hfinite,hfinite,hrounds.value_eq hfinite,
        hrounds.signBit_eq hfinite⟩
    · rintro ⟨negative,x,htypes,hlt,hfinite,hvalue,hsign⟩
      exact ⟨negative,x,htypes,hfinite,iff_of_true hfinite hlt,fun _ => hvalue,fun _ => hsign⟩
  · obtain ⟨z,hread,hrounds⟩ := htypes.exists_read
    exact ⟨z,hread.trans (by simp [hrounds.isFinite_iff.mpr hlt])⟩
  · exact isFinite_iff_not.mp (exists_types_of_readReal h).1

/-- A comma between the digits, a sign and a blank. -/
theorem readReal_types_quarter : Types [' ','-','0',',','2','5'] true (1/4) ∧
    readReal [' ','-','0',',','2','5'] = some (-0.25) := by
  have hdigits : Digits ['0'] ∧ Digits ['2','5'] := by
    constructor <;> simp [Digits]
  have hvalue : (1/4 : ℚ) = (ofDigits ['0']+ofDigits ['2','5']/10^2)*10^(0 : ℤ) := by
    rw [show ofDigits ['0'] = 0 from rfl,show ofDigits ['2','5'] = 25 from rfl]
    norm_num
  have htypes : Types [' ','-','0',',','2','5'] true (1/4) := by
    rw [hvalue]
    exact ⟨[' '],['-','0',',','2','5'],[],rfl,List.forall_mem_singleton.mpr rfl,by simp,
      .intro .minus (.point (by simp) (.inl (by simp)) hdigits.1 hdigits.2) .none⟩
  have hgrid : nearest (1/4) = 1/4 := by
    have h := (isGrid_two_zpow (e := -2) (by norm_num)).nearest_eq
    norm_num at h ⊢
    exact h
  have hlt : (1/4 : ℚ) < 2^(1024 : ℤ) := by
    calc (1/4 : ℚ) < 2^(0 : ℤ) := by norm_num
      _ ≤ 2^(1024 : ℤ) := zpow_le_zpow_right₀ one_le_two (by norm_num)
  refine ⟨htypes,((readReal_types _).1 _).mpr ⟨true,1/4,htypes,?_⟩⟩
  rw [hgrid]
  exact ⟨hlt,by decide +kernel,by decide +kernel,by decide +kernel⟩

end Reading

end Number
end NumericWorkbench
