import NumericWorkbench.Proofs.Text.Pieces
/-! The lines of a text in which a carriage return stands only at the end of a line, and lines
joined to a text again. -/
namespace NumericWorkbench
namespace Text

/-- Nothing in the line ends it. -/
structure Plain (line : List Char) : Prop where
  feed : '\n' ∉ line
  ret : '\r' ∉ line

/-- Each carriage return is directly followed by a line feed. -/
def ReturnsEndLines (cs : List Char) : Prop :=
  ∀ i < cs.length, cs[i]? = some '\r' → cs[i+1]? = some '\n'

instance (cs : List Char) : Decidable (ReturnsEndLines cs) :=
  inferInstanceAs (Decidable (∀ i < cs.length, cs[i]? = some '\r' → cs[i+1]? = some '\n'))

namespace ReturnsEndLines
variable {l t : List Char}

theorem right (h : ReturnsEndLines (l ++ t)) : ReturnsEndLines t := by
  intro i hi hreturn
  have hshift := h (l.length+i) (by simpa using hi) (by simpa [List.getElem?_append_right])
  simpa [Nat.add_assoc,List.getElem?_append_right] using hshift

theorem head?_after (h : ReturnsEndLines (l ++ '\r'::t)) : t.head? = some '\n' := by
  have hnext := h l.length (by simp) (by simp)
  simpa [List.getElem?_append_right,List.head?_eq_getElem?] using hnext

theorem eq_nil_of_feed {a b : List Char} (h : ReturnsEndLines (a ++ '\r'::b ++ t))
    (hfeed : '\n' ∉ a ++ '\r'::b) : b = [] := by
  rw [List.append_assoc,List.cons_append] at h
  cases b with
  | nil => rfl
  | cons c b =>
    obtain rfl : c = '\n' := Option.some.inj h.head?_after
    simp at hfeed

theorem plain_of_feed (h : ReturnsEndLines l) (hfeed : '\n' ∉ l) : Plain l := by
  refine ⟨hfeed,fun hreturn => ?_⟩
  obtain ⟨a,b,rfl⟩ := List.append_of_mem hreturn
  have hhead := h.head?_after
  rw [eq_nil_of_feed (t := []) (by simpa using h) hfeed] at hhead
  cases hhead

theorem plain_dropReturn (h : ReturnsEndLines (l ++ t)) (hfeed : '\n' ∉ l) :
    Plain (dropReturn l) := by
  unfold dropReturn
  split
  · rename_i hlast
    refine ⟨fun hmem => hfeed (List.dropLast_subset l hmem),fun hreturn => ?_⟩
    obtain ⟨a,b,hab⟩ := List.append_of_mem hreturn
    obtain ⟨front,rfl⟩ := List.getLast?_eq_some_iff.mp hlast
    rw [List.dropLast_concat] at hab
    have hback : front ++ ['\r'] = a ++ '\r'::(b ++ ['\r']) := by simp [hab]
    rw [hback] at h hfeed
    exact absurd (eq_nil_of_feed h hfeed) (by simp)
  · rename_i hlast
    refine ⟨hfeed,fun hreturn => hlast ?_⟩
    obtain ⟨a,b,rfl⟩ := List.append_of_mem hreturn
    simp [eq_nil_of_feed h hfeed]

end ReturnsEndLines

theorem lines_of_feed {l : List Char} (h : '\n' ∉ l) : lines l = if l.isEmpty then [] else [l] := by
  simp [lines,pieces_of_notMem h]

theorem lines_join (l rest : List Char) :
    lines (l ++ '\n'::rest) = (pieces '\n' l).map dropReturn ++ lines rest := by
  have hne := pieces_ne_nil '\n' rest
  rw [lines,pieces_separator,List.dropLast_append_of_ne_nil hne,
    List.getLast?_append_of_ne_nil _ hne,List.map_append,List.append_assoc]
  rfl

theorem lines_append {l : List Char} (h : '\n' ∉ l) (rest : List Char) :
    lines (l ++ '\n'::rest) = dropReturn l::lines rest := by
  rw [lines_join,pieces_of_notMem h]
  rfl

theorem feed_notMem_lines (cs : List Char) : ∀ l ∈ lines cs, '\n' ∉ l := by
  have hpieces := separator_notMem_pieces '\n' cs
  intro l hl
  rcases List.mem_append.mp hl with hl | hl
  · obtain ⟨p,hp,rfl⟩ := List.mem_map.mp hl
    have hfeed := hpieces p (List.dropLast_subset _ hp)
    unfold dropReturn
    split
    · exact fun hmem => hfeed (List.dropLast_subset p hmem)
    · exact hfeed
  · split at hl
    · cases hl
    · rw [List.mem_singleton] at hl
      subst hl
      rw [List.getLast?_eq_some_getLast (pieces_ne_nil '\n' cs),Option.getD_some]
      exact hpieces _ (List.getLast_mem _)

theorem trim_dropReturn (line : List Char) : trim (dropReturn line) = trim line := by
  unfold dropReturn
  split
  · rename_i hlast
    obtain ⟨front,rfl⟩ := List.getLast?_eq_some_iff.mp hlast
    rw [List.dropLast_concat,trim_append_blank front (by decide)]
  · rfl

theorem plain_of_mem_lines {cs : List Char} (h : ReturnsEndLines cs) : ∀ l ∈ lines cs, Plain l := by
  induction hn : cs.length using Nat.strongRecOn generalizing cs with
  | ind n ih =>
    by_cases hfeed : '\n' ∈ cs
    · obtain ⟨l,rest,rfl,hl⟩ := List.eq_append_cons_of_mem hfeed
      have hrest : ReturnsEndLines rest := .right (l := l ++ ['\n']) (by simpa using h)
      rw [lines_append hl,List.forall_mem_cons]
      exact ⟨h.plain_dropReturn hl,ih rest.length (by simp +arith [← hn]) hrest rfl⟩
    · rw [lines_of_feed hfeed]
      split
      · simp
      · simpa using h.plain_of_feed hfeed

def joined (ls : List (List Char)) : List Char := ['\n'].intercalate ls

/-- What follows a line in a text of lines. -/
def following : List (List Char) → List Char
  | [] => []
  | l::ls => '\n'::joined (l::ls)

theorem joined_cons (l : List Char) (ls : List (List Char)) :
    joined (l::ls) = l ++ following ls := by
  cases ls with
  | nil => simp [joined,following]
  | cons m ls => simp [joined,following,List.intercalate]

theorem following_append (ls ms : List (List Char)) :
    following (ls ++ ms) = following ls ++ following ms := by
  induction ls with
  | nil => rfl
  | cons l ls ih => rw [List.cons_append,following,following,joined_cons,joined_cons,ih]; simp

theorem joined_append {ls ms : List (List Char)} (hls : ls ≠ []) (hms : ms ≠ []) :
    joined (ls ++ ms) = joined ls ++ '\n'::joined ms := by
  obtain ⟨l,ls,rfl⟩ := List.exists_cons_of_ne_nil hls
  obtain ⟨m,ms,rfl⟩ := List.exists_cons_of_ne_nil hms
  rw [List.cons_append,joined_cons,following_append,joined_cons,List.append_assoc]
  rfl

theorem getLast?_joined {ls : List (List Char)} (h : ∀ l ∈ ls, l ≠ []) :
    (joined ls).getLast? = ls.getLast?.bind List.getLast? := by
  obtain rfl | ⟨front,last,rfl⟩ := ls.eq_nil_or_concat'
  · rfl
  have hlast : last ≠ [] := h last (by simp)
  have hjoined : joined [last] = last := by rw [joined_cons,following,List.append_nil]
  rw [List.getLast?_concat,Option.bind_some]
  obtain rfl | hfront := eq_or_ne front []
  · rw [List.nil_append,hjoined]
  · rw [joined_append hfront (by simp),hjoined,List.getLast?_append_of_ne_nil _ (by simp),
      List.getLast?_cons_of_ne_nil hlast]

theorem joined_eq_nil {ls : List (List Char)} (h : ∀ l ∈ ls, l ≠ []) :
    joined ls = [] ↔ ls = [] := by
  cases ls with
  | nil => simp [joined]
  | cons l ls => simp [joined_cons,h l]

theorem joined_length_le (ls : List (List Char)) :
    (joined ls).length ≤ (following ls).length := by
  cases ls with
  | nil => simp [joined,following]
  | cons l ls => simp [following]

theorem joined_length_le_append (lines rest : List (List Char)) :
    (joined rest).length ≤ (joined (lines ++ rest)).length := by
  induction lines with
  | nil => exact Nat.le_refl _
  | cons l lines ih =>
    have hle := joined_length_le (lines ++ rest)
    rw [List.cons_append,joined_cons,List.length_append]
    omega

theorem joined_length_lt {l : List Char} (h : l ≠ []) (lines rest : List (List Char)) :
    (joined rest).length < (joined (l::(lines ++ rest))).length := by
  have hpos : 0 < l.length := List.length_pos_iff.mpr h
  have hfollowing := joined_length_le (lines ++ rest)
  have happend := joined_length_le_append lines rest
  rw [joined_cons,List.length_append]
  omega

theorem head?_lines_joined {l : List Char} (h : Plain l) (hne : l ≠ []) (ls : List (List Char)) :
    (lines (joined (l::ls))).head? = some l := by
  have hreturn : dropReturn l = l := by
    rw [dropReturn,if_neg]
    exact fun hlast => h.ret (List.mem_of_getLast? hlast)
  rw [joined_cons]
  cases ls with
  | nil => simp [following,lines_of_feed h.feed,hne]
  | cons m ls => rw [following,lines_append h.feed,hreturn,List.head?_cons]

end Text
end NumericWorkbench
