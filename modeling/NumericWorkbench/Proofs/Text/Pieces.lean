import NumericWorkbench.Text.Blank
import Mathlib.Data.List.Basic
import Mathlib.Data.List.DropRight
import Mathlib.Data.List.TakeWhile
/-! Runs of characters of one kind, the pieces and words between separators, and the blanks around a
text. -/
namespace NumericWorkbench
namespace Text

section Runs
variable {p : Char → Bool} {front cs : List Char}

theorem dropWhile_exact (h : ∀ c ∈ front, p c = true) (hcs : ∀ c ∈ cs.head?, p c = false) :
    (front ++ cs).dropWhile p = cs := by
  rw [List.dropWhile_append_of_pos h]
  cases cs with
  | nil => rfl
  | cons c cs => exact List.dropWhile_cons_of_neg (by simp [hcs c rfl])

theorem takeWhile_exact (h : ∀ c ∈ front, p c = true) (hcs : ∀ c ∈ cs.head?, p c = false) :
    (front ++ cs).takeWhile p = front := by
  rw [List.takeWhile_append_of_pos h]
  cases cs with
  | nil => simp
  | cons c cs => simp [hcs c rfl]

end Runs

theorem pieces_separator (separator : Char) (l rest : List Char) :
    pieces separator (l ++ separator::rest) = pieces separator l ++ pieces separator rest := by
  induction l with
  | nil => simp [pieces]
  | cons c l ih =>
    rw [List.cons_append,pieces,pieces,ih]
    split
    · rfl
    · cases h : pieces separator l with
      | nil => exact absurd h (pieces_ne_nil separator l)
      | cons p ps => rfl

theorem separator_notMem_pieces (separator : Char) (cs : List Char) :
    ∀ p ∈ pieces separator cs, separator ∉ p := by
  induction cs with
  | nil => simp [pieces]
  | cons c cs ih =>
    rw [pieces]
    split
    · simpa using ih
    · rename_i hc
      cases h : pieces separator cs with
      | nil => simpa using Ne.symm hc
      | cons p ps =>
        rw [h,List.forall_mem_cons] at ih
        simpa [Ne.symm hc] using ih

theorem pieces_of_notMem {separator : Char} {l : List Char} (h : separator ∉ l) :
    pieces separator l = [l] := by
  induction l with
  | nil => rfl
  | cons c l ih =>
    rw [List.mem_cons,not_or] at h
    rw [pieces,if_neg (Ne.symm h.1),ih h.2]

theorem exists_piece_of_mem {separator c : Char} {cs : List Char} (hc : c ∈ cs)
    (hne : c ≠ separator) : ∃ p ∈ pieces separator cs, c ∈ p := by
  induction cs with
  | nil => cases hc
  | cons d cs ih =>
    rw [pieces]
    split
    · rename_i hd
      have hmem : c ∈ cs := by simpa [hd,hne] using hc
      simpa using ih hmem
    · cases h : pieces separator cs with
      | nil => exact absurd h (pieces_ne_nil separator cs)
      | cons p ps =>
        rw [h] at ih
        rcases List.mem_cons.mp hc with rfl | hc
        · exact ⟨c::p,by simp,by simp⟩
        · obtain ⟨q,hq,hmem⟩ := ih hc
          rcases List.mem_cons.mp hq with rfl | hq
          · exact ⟨d::q,by simp,by simp [hmem]⟩
          · exact ⟨q,by simp [hq],hmem⟩

/-- A word of a text, between two neighbouring separators or ends of the text. -/
def Stands (separators word cs : List Char) : Prop :=
  ∃ front back, cs = front ++ word ++ back ∧ (∀ s ∈ separators, s ∉ word) ∧
    (∀ c ∈ front.getLast?, c ∈ separators) ∧ ∀ c ∈ back.head?, c ∈ separators

section Words
variable {word cs front back : List Char} {separator outer : Char} {P : Char → Prop}

theorem forall_getLast?_append (hfront : ∀ c ∈ front.getLast?, P c) (hback : ∀ c ∈ back.getLast?, P c) :
    ∀ c ∈ (front ++ back).getLast?, P c := by
  rw [List.getLast?_append]
  cases h : back.getLast? with
  | none => simpa using hfront
  | some d => simpa using hback d h

theorem forall_head?_append (hfront : ∀ c ∈ front.head?, P c) (hback : ∀ c ∈ back.head?, P c) :
    ∀ c ∈ (front ++ back).head?, P c := by
  cases front with
  | nil => exact hback
  | cons d front => exact hfront

theorem mem_pieces_iff : word ∈ pieces separator cs ↔ Stands [separator] word cs := by
  constructor
  · intro h
    induction hn : cs.length using Nat.strongRecOn generalizing cs with
    | ind n ih =>
      by_cases hsep : separator ∈ cs
      · obtain ⟨first,rest,rfl,hfirst⟩ := List.eq_append_cons_of_mem hsep
        rw [pieces_separator,pieces_of_notMem hfirst,List.singleton_append,List.mem_cons] at h
        rcases h with rfl | h
        · exact ⟨[],separator::rest,rfl,by simpa using hfirst,by simp,by simp⟩
        · have hlt : rest.length < n := by
            rw [← hn,List.length_append,List.length_cons]
            omega
          obtain ⟨front,back,rfl,hword,hfront,hback⟩ := ih rest.length hlt h rfl
          refine ⟨(first ++ [separator]) ++ front,back,by simp,hword,?_,hback⟩
          exact forall_getLast?_append (by simp) hfront
      · rw [pieces_of_notMem hsep,List.mem_singleton] at h
        subst h
        exact ⟨[],[],by simp,by simpa using hsep,by simp,by simp⟩
  · rintro ⟨front,back,rfl,hword,hfront,hback⟩
    have hword : pieces separator word = [word] := pieces_of_notMem (by simpa using hword)
    have hmem : word ∈ pieces separator (word ++ back) := by
      cases back with
      | nil => simp [hword]
      | cons c back =>
        obtain rfl : c = separator := by simpa using hback
        simp [pieces_separator,hword]
    rcases List.eq_nil_or_concat front with rfl | ⟨front,c,rfl⟩
    · exact hmem
    · obtain rfl : c = separator := by simpa using hfront
      simp [pieces_separator,hmem]

theorem stands_pair_iff : Stands [separator,outer] word cs ↔
    ∃ row, Stands [outer] row cs ∧ Stands [separator] word row := by
  constructor
  · rintro ⟨front,back,rfl,hword,hfront,hback⟩
    let inner (c : Char) : Bool := c ≠ outer
    have hinner {c : Char} : inner c = true ↔ c ≠ outer := by simp [inner]
    have hleft (c : Char) (hc : c ∈ front.rtakeWhile inner) : c ≠ outer :=
      hinner.mp (List.mem_rtakeWhile_imp hc)
    have hright (c : Char) (hc : c ∈ back.takeWhile inner) : c ≠ outer :=
      hinner.mp (List.mem_takeWhile_imp hc)
    have hfront' : front.rdropWhile inner ++ front.rtakeWhile inner = front :=
      List.rdropWhile_append_rtakeWhile
    have hback' : back.takeWhile inner ++ back.dropWhile inner = back :=
      List.takeWhile_append_dropWhile
    refine ⟨front.rtakeWhile inner ++ word ++ back.takeWhile inner,
      ⟨front.rdropWhile inner,back.dropWhile inner,?_,?_,fun c hc => ?_,fun c hc => ?_⟩,
      front.rtakeWhile inner,back.takeWhile inner,rfl,?_,fun c hc => ?_,fun c hc => ?_⟩
    · conv_lhs => rw [← hfront',← hback']
      simp only [List.append_assoc]
    · have hnotMem : outer ∉ word := hword outer (by simp)
      simpa [hnotMem] using ⟨fun h => hleft outer h rfl,fun h => hright outer h rfl⟩
    · obtain ⟨hne,rfl⟩ := List.mem_getLast?_eq_getLast hc
      simpa [inner] using List.rdropWhile_last_not inner front hne
    · have hstop := List.head?_dropWhile_not inner back
      rw [hc] at hstop
      simpa [inner] using hstop
    · simpa using hword separator (by simp)
    · have hends := hfront c (hfront' ▸ List.mem_getLast?_append_of_mem_getLast? hc)
      simpa [hleft c (List.mem_of_getLast? hc)] using hends
    · have hends := hback c (hback' ▸ List.mem_head?_append_of_mem_head? hc)
      simpa [hright c (List.mem_of_head? hc)] using hends
  · rintro ⟨_,⟨front,back,rfl,hrow,hfront,hback⟩,front',back',rfl,hword,hfront',hback'⟩
    refine ⟨front ++ front',back' ++ back,by simp,?_,forall_getLast?_append ?_ ?_,
      forall_head?_append ?_ ?_⟩
    all_goals simp_all

end Words

section Blanks
variable {front body back cs : List Char}

theorem trim_exact (hfront : ∀ c ∈ front, isBlank c = true) (hback : ∀ c ∈ back, isBlank c = true)
    (hbody : ∀ c ∈ body, isBlank c = false) (hne : body ≠ []) :
    trim (front ++ (body ++ back)) = body := by
  have hhead : ∀ c ∈ (body ++ back).head?, isBlank c = false := by
    rw [List.head?_append_of_ne_nil _ hne]
    exact fun c hc => hbody c (List.mem_of_head? hc)
  have hlast : ∀ c ∈ body.reverse.head?, isBlank c = false :=
    fun c hc => hbody c (List.mem_reverse.mp (List.mem_of_head? hc))
  rw [trim,dropWhile_exact hfront hhead,List.reverse_append,
    dropWhile_exact (by simpa using hback) hlast,List.reverse_reverse]

theorem exists_trim (cs : List Char) : ∃ front back, cs = front ++ (trim cs ++ back) ∧
    (∀ c ∈ front, isBlank c = true) ∧ ∀ c ∈ back, isBlank c = true := by
  have hsplit := List.takeWhile_append_dropWhile (p := isBlank) (l := cs)
  have hback : trim cs ++ ((cs.dropWhile isBlank).reverse.takeWhile isBlank).reverse =
      cs.dropWhile isBlank := by
    rw [trim,← List.reverse_append,List.takeWhile_append_dropWhile,List.reverse_reverse]
  refine ⟨cs.takeWhile isBlank,((cs.dropWhile isBlank).reverse.takeWhile isBlank).reverse,?_,
    fun c hc => List.mem_takeWhile_imp hc,fun c hc => ?_⟩
  · rw [hback,hsplit]
  · exact List.mem_takeWhile_imp (List.mem_reverse.mp hc)

theorem trim_map {f : Char → Char} (h : ∀ c, isBlank (f c) = isBlank c) (cs : List Char) :
    trim (cs.map f) = (trim cs).map f := by
  have hcomp : isBlank ∘ f = isBlank := funext h
  rw [trim,trim,List.dropWhile_map,← List.map_reverse,List.dropWhile_map,hcomp,List.map_reverse]

end Blanks

theorem isBlank_of_notMem_trim {cs : List Char} {c : Char} (hc : c ∈ cs) (h : c ∉ trim cs) :
    isBlank c = true := by
  by_cases hfront : c ∈ cs.dropWhile isBlank
  · rw [trim,List.mem_reverse] at h
    have hback : c ∈ (cs.dropWhile isBlank).reverse.takeWhile isBlank := by
      rw [← List.mem_reverse,← List.takeWhile_append_dropWhile (p := isBlank)
        (l := (cs.dropWhile isBlank).reverse),List.mem_append] at hfront
      exact hfront.resolve_right h
    exact List.mem_takeWhile_imp hback
  · rw [← List.takeWhile_append_dropWhile (p := isBlank) (l := cs),List.mem_append] at hc
    exact List.mem_takeWhile_imp (hc.resolve_right hfront)

theorem trim_append_blank (cs : List Char) {c : Char} (h : isBlank c = true) :
    trim (cs ++ [c]) = trim cs := by
  rw [trim,trim,List.dropWhile_append]
  split
  · rename_i hempty
    simp [h,List.isEmpty_iff.mp hempty]
  · simp [h]

end Text
end NumericWorkbench
