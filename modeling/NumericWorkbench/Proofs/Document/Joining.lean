import NumericWorkbench.Proofs.Document.Parsing
/-! Documents one after the other. What stands at the end of a document is read in the same way in
front of another one, as long as the document can be read on its own. -/
namespace NumericWorkbench
open Text

namespace Document
variable {cs rest more : List Char} {name : String} {e : Entry} {s : Section}

/-- What is left of a text with a further line after it. -/
def continued : List Char → List Char → List Char
  | [],more => more
  | rest,more => rest ++ '\n'::more

theorem continued_of_ne_nil (h : rest ≠ []) (more : List Char) :
    continued rest more = rest ++ '\n'::more := by
  cases rest with
  | nil => exact absurd rfl h
  | cons c rest => rfl

/-- The text does not end with an empty line. -/
def Unfinished (cs : List Char) : Prop := cs.getLast? ≠ some '\n'

theorem Unfinished.suffix (h : Unfinished cs) (hrest : rest <:+ cs) : Unfinished rest := by
  intro hlast
  obtain ⟨front,rfl⟩ := hrest
  exact h (by rw [List.getLast?_append,hlast,Option.some_or])

theorem lineRest_continued {line : List Char} (h : lineRest cs = some (line,rest))
    (more : List Char) :
    lineRest (cs ++ '\n'::more) = some (line,rest ++ '\n'::more) := by
  fun_induction lineRest cs generalizing line rest with
  | case1 | case2 | case3 =>
    cases h
    simp [lineRest]
  | case4 => cases h
  | case5 c cs hfeed hreturn hret ih =>
    obtain ⟨⟨line',rest'⟩,hline,heq⟩ := Option.map_eq_some_iff.mp h
    cases heq
    rw [List.cons_append,lineRest]
    · rw [ih hline]
      rfl
    · exact hfeed
    · exact fun _ hc _ => hret hc
    · exact hret

theorem lineEnd_continued {x : Unit} (h : lineEnd cs = some (x,rest)) (hcs : Unfinished cs)
    (more : List Char) :
    lineEnd (cs ++ '\n'::more) = some ((),continued rest more) := by
  rcases lineEnd_sound h with ⟨rfl,rfl⟩ | rfl | rfl
  · rfl
  · have hne : rest ≠ [] := by
      rintro rfl
      exact hcs rfl
    rw [continued_of_ne_nil hne]
    rfl
  · have hne : rest ≠ [] := by
      rintro rfl
      exact hcs rfl
    rw [continued_of_ne_nil hne]
    rfl

theorem title_continued (h : title cs = some (name,rest)) (hcs : Unfinished cs)
    (more : List Char) :
    title (cs ++ '\n'::more) = some (name,continued rest more) := by
  obtain ⟨front,tail,rfl,hspaced,hend⟩ := title_sound h
  rw [List.append_assoc]
  exact title_append hspaced (lineEnd_continued hend (hcs.suffix (List.suffix_append _ _)) more)

theorem entry_continued (h : entry cs = some (e,rest)) (hcs : Unfinished cs) (more : List Char) :
    entry (cs ++ '\n'::more) = some (e,continued rest more) := by
  obtain ⟨front,value,tail,rfl,hspaced,-,hvalue,hline,hend⟩ := entry_sound h
  have htail : Unfinished tail := hcs.suffix ⟨front ++ ':'::value,by simp⟩
  have hline' := lineRest_continued hline more
  have hend' := lineEnd_continued hend htail more
  rw [List.append_assoc] at hline'
  simpa using entry_append hspaced hvalue hline' hend'

theorem entry_eq_none_of_title (h : title cs = some (name,rest)) : entry cs = none := by
  refine Option.eq_none_iff_forall_ne_some.mpr ?_
  rintro ⟨e,rest'⟩ hentry
  obtain ⟨⟨name',tail⟩,hname,h⟩ := Option.bind_eq_some_iff.mp h
  obtain ⟨⟨⟨⟩,rest''⟩,hend,-⟩ := Option.bind_eq_some_iff.mp h
  obtain ⟨⟨key,tail'⟩,hkey,hentry⟩ := Option.bind_eq_some_iff.mp hentry
  obtain ⟨⟨⟨⟩,tail''⟩,hcolon,-⟩ := Option.bind_eq_some_iff.mp hentry
  rw [hname] at hkey
  cases hkey
  rw [Reader.char_eq_some hcolon] at hend
  rcases lineEnd_cons hend with hc | hc <;> cases hc

theorem lineEnd_suffix {x : Unit} (h : lineEnd cs = some (x,rest)) : rest <:+ cs := by
  rcases lineEnd_sound h with ⟨rfl,rfl⟩ | rfl | rfl
  · exact List.suffix_refl _
  · exact ⟨['\n'],rfl⟩
  · exact ⟨['\r','\n'],rfl⟩

theorem consumes_title : Reader.Consumes title := by
  intro cs name rest h
  obtain ⟨front,tail,rfl,hspaced,hend⟩ := title_sound h
  obtain ⟨ended,rfl⟩ := lineEnd_suffix hend
  obtain ⟨before,after,rfl,-,⟨c,word,hname,-⟩,-⟩ := hspaced
  exact ⟨before ++ name.toList ++ after ++ ended,by simp,by simp [hname]⟩

theorem consumes_entry : Reader.Consumes entry := by
  intro cs e rest h
  obtain ⟨front,value,tail,rfl,-,-,-,-,hend⟩ := entry_sound h
  obtain ⟨ended,rfl⟩ := lineEnd_suffix hend
  exact ⟨front ++ ':'::(value ++ ended),by simp,by simp⟩

theorem entry_last (h : entry cs = some (e,[])) : cs.getLast? ≠ some '\r' := by
  obtain ⟨front,value,tail,rfl,-,hplain,-,-,hend⟩ := entry_sound h
  intro hlast
  rcases lineEnd_sound hend with ⟨rfl,-⟩ | rfl | rfl
  · rw [List.append_nil,List.getLast?_append,List.getLast?_cons] at hlast
    cases hv : value.getLast? with
    | none => simp [hv] at hlast
    | some c =>
      rw [hv] at hlast
      obtain rfl : c = '\r' := by simpa using hlast
      exact hplain.ret (List.mem_of_getLast? hv)
  · simp [List.getLast?_append,List.getLast?_cons] at hlast
  · simp [List.getLast?_append,List.getLast?_cons] at hlast

theorem sectionReader_eq_some :
    sectionReader cs = some (s,rest) ↔ ∃ lines, title cs = some (s.title,lines) ∧
      Reader.Reads entry lines s.entries rest ∧ s.entries ≠ [] ∧ entry rest = none := by
  constructor
  · intro h
    obtain ⟨⟨name,lines⟩,htitle,h⟩ := Option.bind_eq_some_iff.mp h
    obtain ⟨⟨es,left⟩,hentries,heq⟩ := Option.bind_eq_some_iff.mp h
    obtain ⟨⟨e,lines'⟩,hentry,hmany⟩ := Option.bind_eq_some_iff.mp hentries
    cases heq
    cases hmany
    obtain ⟨hreads,hend⟩ := Reader.many_reads consumes_entry lines' rfl
    exact ⟨lines,htitle,.more hentry (consumes_entry.length_lt hentry) hreads,by simp,hend⟩
  · rintro ⟨lines,htitle,hreads,hne,hend⟩
    obtain ⟨name,es⟩ := s
    cases hreads with
    | done => exact absurd rfl hne
    | more hentry _ hreads =>
      rw [sectionReader,htitle]
      simp [Reader.many1,hentry,Reader.many_eq hreads hend]

theorem consumes_section : Reader.Consumes sectionReader := by
  intro cs s rest h
  obtain ⟨lines,htitle,hreads,-⟩ := sectionReader_eq_some.mp h
  obtain ⟨used,rfl,hne⟩ := consumes_title _ _ _ htitle
  obtain ⟨entries,rfl⟩ := hreads.suffix consumes_entry
  exact ⟨used ++ entries,by simp,by simp [hne]⟩

theorem entries_continued {es : List Entry} (h : Reader.Reads entry cs es rest)
    (hcs : Unfinished cs) (hes : es ≠ []) :
    Reader.Reads entry (cs ++ '\n'::more) es (continued rest more) := by
  induction h with
  | done => exact absurd rfl hes
  | @more cs rest left e es hentry hlt hreads ih =>
    have hentry' := entry_continued hentry hcs more
    refine .more hentry' (consumes_entry.length_lt hentry') ?_
    obtain ⟨used,rfl,-⟩ := consumes_entry _ _ _ hentry
    have hrest : Unfinished rest := hcs.suffix (List.suffix_append _ _)
    cases hreads with
    | done => exact .done
    | more hnext hshort hreads =>
      rw [continued_of_ne_nil (List.ne_nil_of_length_pos (by omega))]
      exact ih hrest (by simp)

/-- A section is read as before if no entry comes after the text. -/
theorem section_continued (h : sectionReader cs = some (s,rest)) (hcs : Unfinished cs)
    (hend : entry (continued rest more) = none) :
    sectionReader (cs ++ '\n'::more) = some (s,continued rest more) := by
  obtain ⟨lines,htitle,hreads,hne,-⟩ := sectionReader_eq_some.mp h
  obtain ⟨used,rfl,-⟩ := consumes_title _ _ _ htitle
  have htitle' := title_continued htitle hcs more
  rw [continued_of_ne_nil (hreads.ne_nil hne)] at htitle'
  exact sectionReader_eq_some.mpr ⟨_,htitle',
    entries_continued hreads (hcs.suffix (List.suffix_append _ _)) hne,hne,hend⟩

theorem exists_title (h : sectionReader cs = some (s,rest)) : ∃ x, title cs = some x :=
  let ⟨_,htitle,_⟩ := sectionReader_eq_some.mp h
  ⟨_,htitle⟩

theorem sections_continued {ss ss' : List Section} (h : Reader.Reads sectionReader cs ss [])
    (hcs : Unfinished cs) (hmore : Reader.Reads sectionReader more ss' [])
    (hend : entry more = none) :
    Reader.Reads sectionReader (continued cs more) (ss ++ ss') [] := by
  generalize hnil : ([] : List Char) = left at h
  induction h with
  | done => exact hnil ▸ hmore
  | @more cs rest left s ss hsection hlt hreads ih =>
    subst hnil
    have hrest : Unfinished rest := by
      obtain ⟨used,rfl,-⟩ := consumes_section _ _ _ hsection
      exact hcs.suffix (List.suffix_append _ _)
    have hnone : entry (continued rest more) = none := by
      cases hreads with
      | done => exact hend
      | more hnext hshort _ =>
        obtain ⟨x,htitle⟩ := exists_title hnext
        rw [continued_of_ne_nil (List.ne_nil_of_length_pos (by omega))]
        exact entry_eq_none_of_title (title_continued htitle hrest _)
    have hsection' := section_continued hsection hcs hnone
    rw [continued_of_ne_nil (List.ne_nil_of_length_pos (by omega))]
    exact .more hsection' (consumes_section.length_lt hsection') (ih hrest rfl)

theorem sections_last {ss : List Section} (h : Reader.Reads sectionReader cs ss [])
    (hss : ss ≠ []) : cs.getLast? ≠ some '\r' := by
  refine h.getLast?_ne consumes_section (fun cs s hs => ?_) hss
  obtain ⟨lines,htitle,hreads,hne,-⟩ := sectionReader_eq_some.mp hs
  obtain ⟨used,rfl,-⟩ := consumes_title _ _ _ htitle
  rw [List.getLast?_append_of_ne_nil used (hreads.ne_nil hne)]
  exact hreads.getLast?_ne consumes_entry (fun _ _ => entry_last) hne

theorem isKept_dropReturn (line : List Char) : isKept (dropReturn line) = isKept line := by
  rw [isKept,isKept,trim_dropReturn]

theorem ne_nil_of_mem_keptLines {text line : List Char} (h : line ∈ keptLines text) :
    line ≠ [] := by
  rintro rfl
  have hkept := (List.mem_filter.mp h).2
  simp [isKept,trim] at hkept

theorem keptLines_join {text : List Char} (h : (kept text).getLast? ≠ some '\r')
    (more : List Char) : keptLines (text ++ '\n'::more) = keptLines text ++ keptLines more := by
  obtain hnil | ⟨front,last,hpieces⟩ := (pieces '\n' text).eq_nil_or_concat'
  · exact absurd hnil (pieces_ne_nil _ _)
  have hempty : (if last.isEmpty then [] else [last]).filter isKept = [last].filter isKept := by
    cases last <;> rfl
  have hlines : keptLines text = (front.map dropReturn).filter isKept ++ [last].filter isKept := by
    rw [keptLines,lines,hpieces,List.dropLast_concat,List.getLast?_concat,Option.getD_some,
      List.filter_append,hempty]
  have hreturn : [dropReturn last].filter isKept = [last].filter isKept := by
    rw [List.filter_singleton,List.filter_singleton,isKept_dropReturn]
    cases hkept : isKept last with
    | false => rfl
    | true =>
      rw [kept,← joined,getLast?_joined fun _ => ne_nil_of_mem_keptLines,hlines,
        List.filter_singleton,hkept,cond_true,List.getLast?_concat,Option.bind_some] at h
      rw [dropReturn,if_neg h]
  rw [keptLines,lines_join,hpieces,List.map_append,List.filter_append,List.filter_append,
    List.map_singleton,hreturn,hlines]
  rfl

theorem kept_join {text more : List Char} (h : (kept text).getLast? ≠ some '\r')
    (hmore : kept more ≠ []) : kept (text ++ '\n'::more) = continued (kept text) (kept more) := by
  have hlines : keptLines more ≠ [] := fun hnil => hmore (by rw [kept,hnil]; rfl)
  rw [kept,keptLines_join h,← joined]
  obtain hnil | hne := eq_or_ne (keptLines text) []
  · rw [kept,hnil]
    rfl
  · have hkept : kept text ≠ [] :=
      (joined_eq_nil fun _ => ne_nil_of_mem_keptLines).not.mpr hne
    rw [continued_of_ne_nil hkept,joined_append hne hlines]
    rfl

theorem unfinished_kept (text : List Char) : Unfinished (kept text) := by
  rw [Unfinished,kept,← joined,getLast?_joined fun _ => ne_nil_of_mem_keptLines]
  intro hlast
  obtain ⟨line,hline,hfeed⟩ := Option.bind_eq_some_iff.mp hlast
  have hmem := (List.mem_filter.mp (List.mem_of_getLast? hline)).1
  exact feed_notMem_lines text line hmem (List.mem_of_getLast? hfeed)

theorem parse_eq_ok {text : String} {ss : List Section} :
    parse text = .ok ss ↔ kept text.toList ≠ [] ∧
      Reader.Reads sectionReader (kept text.toList) ss [] := by
  rw [parse]
  simp only [List.isEmpty_iff]
  split
  · simp [*]
  · rename_i hne
    constructor
    · intro h
      rcases hmany : Reader.many sectionReader (kept text.toList) with ⟨ss',rest⟩
      rw [hmany] at h
      cases rest with
      | nil =>
        cases h
        exact ⟨hne,(Reader.many_reads consumes_section _ hmany).1⟩
      | cons c rest => cases h
    · rintro ⟨-,hreads⟩
      rw [Reader.many_eq hreads rfl]

/-- The sections of one document and then those of the other. -/
theorem parse_join {d₁ d₂ : String} {s₁ s₂ : List Section} (h₁ : parse d₁ = .ok s₁)
    (h₂ : parse d₂ = .ok s₂) : parse (d₁ ++ "\n" ++ d₂) = .ok (s₁ ++ s₂) := by
  obtain ⟨hne₁,hreads₁⟩ := parse_eq_ok.mp h₁
  obtain ⟨hne₂,hreads₂⟩ := parse_eq_ok.mp h₂
  have hlast := sections_last hreads₁ (hreads₁.values_ne_nil hne₁)
  have hend : entry (kept d₂.toList) = none := by
    obtain ⟨s,rest,hsection⟩ := hreads₂.exists_first hne₂
    obtain ⟨x,htitle⟩ := exists_title hsection
    exact entry_eq_none_of_title htitle
  have hkept : kept (d₁ ++ "\n" ++ d₂).toList = continued (kept d₁.toList) (kept d₂.toList) := by
    rw [String.toList_append,String.toList_append,List.append_assoc]
    exact kept_join hlast hne₂
  have hreads := sections_continued hreads₁ (unfinished_kept d₁.toList) hreads₂ hend
  refine parse_eq_ok.mpr ⟨?_,hkept ▸ hreads⟩
  rw [hkept,continued_of_ne_nil hne₁]
  simp

end Document
end NumericWorkbench
