import NumericWorkbench.Proofs.Formula.Tokens
/-! The tokens that are scanned lie side by side from the beginning of the text to its end. Where
no token can be read, the text before is still scanned when it stands alone. -/
namespace NumericWorkbench
namespace Formula

/-- Where the token with the number `i` ends: where the next one begins, or with the text. -/
def stopAt (cs : List Char) (ls : List Lexeme) (i : Nat) : Nat :=
  (ls[i+1]?.map Lexeme.pos).getD cs.length

/-- The tokens lie side by side from the offset `pos` on, each spelled by the characters from its
position to the next one. -/
structure Tiling (cs : List Char) (pos : Nat) (ls : List Lexeme) : Prop where
  first : ∀ l ∈ ls.head?, l.pos = pos
  covered : ls = [] → cs.length ≤ pos
  increasing : (ls.map Lexeme.pos).Pairwise (· < ·)
  spelled : ∀ i l, ls[i]? = some l →
    Spells l.token ((cs.take (stopAt cs ls i)).drop l.pos) (cs.drop (stopAt cs ls i))

def Unreadable (cs : List Char) : Prop :=
  ∀ t text rest, cs = text ++ rest → ¬Spells t text rest

variable {cs text rest : List Char} {t : Token} {l : Lexeme} {ls : List Lexeme} {pos stop : Nat}

section Tilings

theorem drop_split (h : cs.drop pos = text ++ rest) : cs.drop (pos+text.length) = rest := by
  rw [← List.drop_drop,h,List.drop_left]

theorem Spells.length_pos (h : Spells t text rest) : 0 < text.length := by
  obtain ⟨c,cs,rfl,-⟩ := h.tokenAt_eq
  exact Nat.succ_pos _

theorem tiling_nil : Tiling cs pos [] ↔ cs.length ≤ pos :=
  ⟨fun h => h.covered rfl,fun h => ⟨by simp,fun _ => h,.nil,by simp⟩⟩

theorem Tiling.pos_lt (h : Tiling cs pos ls) (hl : l ∈ ls) : l.pos < cs.length := by
  obtain ⟨i,hi⟩ := List.mem_iff_getElem?.mp hl
  have hlength := (h.spelled i l hi).length_pos
  simp only [List.length_drop,List.length_take] at hlength
  omega

theorem Tiling.le_pos (h : Tiling cs pos ls) (hl : l ∈ ls) : pos ≤ l.pos := by
  cases ls with
  | nil => cases hl
  | cons l₀ ls =>
    have hfirst := h.first l₀ rfl
    rcases List.mem_cons.mp hl with rfl | hl
    · exact hfirst.ge
    · have hlt := (List.pairwise_cons.mp h.increasing).1 l.pos (List.mem_map_of_mem hl)
      omega

theorem Tiling.tail (h : Tiling cs pos (l::ls)) : Tiling cs (stopAt cs (l::ls) 0) ls := by
  refine ⟨?_,?_,(List.pairwise_cons.mp h.increasing).2,fun i => h.spelled (i+1)⟩
  · intro l' hl'
    obtain ⟨back,rfl⟩ := List.head?_eq_some_iff.mp hl'
    rfl
  · rintro rfl
    exact le_rfl

theorem Tiling.suffix {front back : List Lexeme} (h : Tiling cs pos (front ++ l::back)) :
    Tiling cs l.pos (l::back) := by
  induction front generalizing pos with
  | nil =>
    obtain rfl := h.first l rfl
    exact h
  | cons l' front ih => exact ih h.tail

theorem Tiling.stopAt_le (h : Tiling cs pos (l::ls)) : stopAt cs (l::ls) 0 ≤ cs.length := by
  cases ls with
  | nil => exact le_rfl
  | cons l' ls => exact (h.pos_lt (by simp : l' ∈ l::l'::ls)).le

theorem Tiling.stopAt_eq (h : Tiling cs pos ls) (hpos : pos ≤ cs.length) (l : Lexeme) :
    stopAt cs (l::ls) 0 = pos := by
  cases ls with
  | nil => exact hpos.antisymm (h.covered rfl) |>.symm
  | cons l' ls => exact h.first l' rfl

theorem tiling_cons : Tiling cs pos (l::ls) ↔ l.pos = pos ∧ ∃ text rest,
    cs.drop pos = text ++ rest ∧ Spells l.token text rest ∧ Tiling cs (pos+text.length) ls := by
  constructor
  · intro h
    have hspells := h.spelled 0 l rfl
    have hstop := h.stopAt_le
    have htail := h.tail
    obtain rfl := h.first l rfl
    have hlength := hspells.length_pos
    generalize stopAt cs (l::ls) 0 = stop at *
    have hend : l.pos+((cs.take stop).drop l.pos).length = stop := by
      simp only [List.length_drop,List.length_take] at hlength ⊢
      omega
    refine ⟨rfl,_,_,?_,hspells,hend.symm ▸ htail⟩
    rw [← List.drop_append_of_le_length,List.take_append_drop]
    simp only [List.length_drop,List.length_take] at hlength ⊢
    omega
  · rintro ⟨rfl,text,rest,hsplit,hspells,htail⟩
    have hlength := hspells.length_pos
    have hsum := congrArg List.length hsplit
    simp only [List.length_drop,List.length_append] at hsum
    have hstop := htail.stopAt_eq (by omega) l
    refine ⟨by simp,by simp,?_,fun i l' hl' => ?_⟩
    · refine List.pairwise_cons.mpr ⟨fun p hp => ?_,htail.increasing⟩
      obtain ⟨l',hl',rfl⟩ := List.mem_map.mp hp
      have hle := htail.le_pos hl'
      omega
    · cases i with
      | succ i => exact htail.spelled i l' hl'
      | zero =>
        obtain rfl : l = l' := by simpa using hl'
        rw [hstop,List.drop_take,drop_split hsplit,hsplit]
        simpa using hspells

end Tilings

section Cuts

theorem IsLongestLiteral.shorten {back : List Char}
    (h : IsLongestLiteral text (text ++ (rest ++ back))) :
    IsLongestLiteral text (text ++ rest) := by
  refine ⟨h.isLiteral,List.prefix_append _ _,fun l hl hbegins => h.longest l hl ?_⟩
  rw [← List.append_assoc]
  exact hbegins.trans (List.prefix_append _ _)

/-- No token but a function name needs what stands behind it. -/
theorem Spells.shorten {back : List Char} (h : Spells t text (rest ++ back))
    (hback : back.head? ≠ some '(') : Spells t text rest := by
  have hhead (c : Char) (hc : rest.head? = some c) : (rest ++ back).head? = some c := by
    simp [hc]
  cases h with
  | number hlongest hx => exact .number hlongest.shorten hx
  | function hname hnext =>
    cases rest with
    | nil => exact absurd hnext hback
    | cons c rest => exact .function hname hnext
  | e hnext => exact .e fun c hc => hnext c (hhead c hc)
  | star hnext => exact .star fun hc => hnext (hhead _ hc)
  | pi => exact .pi
  | var => exact .var
  | plus => exact .plus
  | minus => exact .minus
  | slash => exact .slash
  | caret => exact .caret
  | stars => exact .stars
  | leftParen => exact .leftParen
  | rightParen => exact .rightParen

theorem Unreadable.head?_ne (h : Unreadable cs) : cs.head? ≠ some '(' := by
  intro hhead
  obtain ⟨rest,rfl⟩ := List.head?_eq_some_iff.mp hhead
  exact h _ ['('] rest rfl .leftParen

end Cuts

section Scans

theorem Spells.scanFrom_eq (h : Spells t text rest) (pos : Nat) :
    scanFrom pos 0 (text ++ rest) =
      (scanFrom (pos+text.length) 0 rest).map (⟨t,pos⟩::·) := by
  obtain ⟨c,cs,rfl,htoken⟩ := h.tokenAt_eq
  exact scanFrom_token (htoken pos)

theorem Tiling.scanFrom_eq (h : Tiling cs pos ls) : scanFrom pos 0 (cs.drop pos) = .ok ls := by
  induction ls generalizing pos with
  | nil =>
    rw [List.drop_eq_nil_of_le (tiling_nil.mp h)]
    rfl
  | cons l ls ih =>
    obtain ⟨rfl,text,rest,hsplit,hspells,htail⟩ := tiling_cons.mp h
    rw [hsplit,hspells.scanFrom_eq,← drop_split hsplit,ih htail]
    rfl

/-- The text can be read up to the offset `stop`, where the error is reported. -/
structure Stops (cs : List Char) (pos : Nat) (e : Error) (stop : Nat) : Prop where
  begins : pos ≤ stop
  inside : stop < cs.length
  tiled : ∃ ls, Tiling (cs.take stop) pos ls
  reports : Reports stop e (cs.drop stop)
  unreadable : Unreadable (cs.drop stop)

theorem unreadable_of_tokenAt {c : Char} {e : Error} (h : tokenAt pos c cs = .error e) :
    Unreadable (c::cs) := by
  intro t text rest hsplit hspells
  obtain ⟨d,ds,rfl,htoken⟩ := hspells.tokenAt_eq
  rw [List.cons_append,List.cons.injEq] at hsplit
  obtain ⟨rfl,rfl⟩ := hsplit
  rw [htoken] at h
  cases h

theorem scanFrom_step (cs : List Char) (pos : Nat) : cs.length ≤ pos ∨
    (∃ t text rest, cs.drop pos = text ++ rest ∧ Spells t text rest) ∨
    ∃ e, scanFrom pos 0 (cs.drop pos) = .error e ∧ Stops cs pos e pos := by
  cases hdrop : cs.drop pos with
  | nil => exact .inl (List.drop_eq_nil_iff.mp hdrop)
  | cons c back =>
    right
    cases htoken : tokenAt pos c back with
    | ok read =>
      obtain ⟨text,rest,hsplit,-,hspells⟩ := spells_of_tokenAt htoken
      exact .inl ⟨read.1,text,rest,hsplit,hspells⟩
    | error e =>
      have hinside : pos < cs.length := by
        by_contra hle
        simp [List.drop_eq_nil_of_le (not_lt.mp hle)] at hdrop
      have htiling : Tiling (cs.take pos) pos [] := tiling_nil.mpr (by simp)
      refine .inr ⟨e,?_,le_rfl,hinside,⟨[],htiling⟩,?_,?_⟩
      · rw [scanFrom,htoken,error_bind]
      · exact hdrop ▸ reports_of_tokenAt htoken
      · exact hdrop ▸ unreadable_of_tokenAt htoken

theorem Stops.cons {e : Error} (hsplit : cs.drop pos = text ++ rest) (hspells : Spells t text rest)
    (h : Stops cs (pos+text.length) e stop) : Stops cs pos e stop := by
  obtain ⟨ls,hls⟩ := h.tiled
  obtain ⟨k,rfl⟩ := Nat.exists_eq_add_of_le h.begins
  have hback : rest.take k ++ cs.drop (pos+text.length+k) = rest := by
    rw [← List.drop_drop,drop_split hsplit,List.take_append_drop]
  have hfront : (cs.take (pos+text.length+k)).drop pos = text ++ rest.take k := by
    have hle : pos+text.length+k-pos = text.length+k := by omega
    rw [List.drop_take,hsplit,hle,List.take_length_add_append]
  have hshort : Spells t text (rest.take k) :=
    Spells.shorten (hback.symm ▸ hspells) h.unreadable.head?_ne
  exact ⟨by omega,h.inside,⟨⟨t,pos⟩::ls,tiling_cons.mpr ⟨rfl,text,_,hfront,hshort,hls⟩⟩,h.reports,
    h.unreadable⟩

theorem scanFrom_cases (hpos : pos ≤ cs.length) :
    (∃ ls, scanFrom pos 0 (cs.drop pos) = .ok ls ∧ Tiling cs pos ls) ∨
    ∃ e stop, scanFrom pos 0 (cs.drop pos) = .error e ∧ Stops cs pos e stop := by
  -- the induction is on the length of the text that is left
  induction hn : cs.length-pos using Nat.strong_induction_on generalizing pos with
  | _ n ih =>
    rcases scanFrom_step cs pos with hle | ⟨t,text,rest,hsplit,hspells⟩ | ⟨e,hscan,hstops⟩
    · have htiling := tiling_nil.mpr hle
      exact .inl ⟨[],htiling.scanFrom_eq,htiling⟩
    · have hlength := hspells.length_pos
      have hsum := congrArg List.length hsplit
      simp only [List.length_drop,List.length_append] at hsum
      have hnext := ih (cs.length-(pos+text.length)) (by omega) (by omega) rfl
      rw [drop_split hsplit] at hnext
      rw [hsplit,hspells.scanFrom_eq]
      rcases hnext with ⟨ls,hls,htiling⟩ | ⟨e,stop,he,hstops⟩
      · refine .inl ⟨⟨t,pos⟩::ls,?_,tiling_cons.mpr ⟨rfl,text,rest,hsplit,hspells,htiling⟩⟩
        rw [hls]
        rfl
      · refine .inr ⟨e,stop,?_,hstops.cons hsplit hspells⟩
        rw [he]
        rfl
    · exact .inr ⟨e,pos,hscan,hstops⟩

theorem scan_eq_ok_iff : scan cs = .ok ls ↔ Tiling cs 0 ls := by
  constructor
  · intro h
    rcases scanFrom_cases (Nat.zero_le cs.length) with ⟨ls',hls,htiling⟩ | ⟨e,_,he,-⟩
    · obtain rfl : ls' = ls := Except.ok.inj (hls.symm.trans h)
      exact htiling
    · cases he.symm.trans h
  · exact Tiling.scanFrom_eq

/-- The scanner tiles its input. -/
theorem scan_tiles (cs : List Char) :
    (∀ ls, scan cs = .ok ls ↔ Tiling cs 0 ls) ∧
    ∀ e, scan cs = .error e → ∃ pos < cs.length, (∃ ls, scan (cs.take pos) = .ok ls) ∧
      Reports pos e (cs.drop pos) ∧ Unreadable (cs.drop pos) := by
  refine ⟨fun ls => scan_eq_ok_iff,fun e he => ?_⟩
  rcases scanFrom_cases (Nat.zero_le cs.length) with ⟨ls,hls,-⟩ | ⟨e',stop,he',hstops⟩
  · cases hls.symm.trans he
  · obtain rfl : e' = e := Except.error.inj (he'.symm.trans he)
    obtain ⟨ls,hls⟩ := hstops.tiled
    exact ⟨stop,hstops.inside,⟨ls,scan_eq_ok_iff.mpr hls⟩,hstops.reports,hstops.unreadable⟩

/-- Digits and points, an `e` in three roles, a short name inside of a long one. -/
theorem scan_tiles_lookahead :
    (∃ ls, scan "2e3log10(x)**e-pi".toList = .ok ls ∧ Tiling "2e3log10(x)**e-pi".toList 0 ls) ∧
    scan "1e+.e5".toList = .error (.invalidNumber ".e5" 3) ∧
    ∃ pos < "1e+.e5".toList.length, (∃ ls, scan ("1e+.e5".toList.take pos) = .ok ls) ∧
      Reports pos (.invalidNumber ".e5" 3) ("1e+.e5".toList.drop pos) ∧
      Unreadable ("1e+.e5".toList.drop pos) := by
  obtain ⟨ls,hls⟩ := exists_eq_ok (m := scan "2e3log10(x)**e-pi".toList) (by decide +kernel)
  have herror : scan "1e+.e5".toList = .error (.invalidNumber ".e5" 3) := by decide +kernel
  exact ⟨⟨ls,hls,((scan_tiles _).1 ls).mp hls⟩,herror,(scan_tiles _).2 _ herror⟩

end Scans
end Formula
end NumericWorkbench
