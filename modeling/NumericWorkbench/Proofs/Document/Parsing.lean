import NumericWorkbench.Document.Sections
import NumericWorkbench.Proofs.Document.Grammar
import NumericWorkbench.Proofs.Document.Reading
import NumericWorkbench.Proofs.Text.Lines
/-! The readers of a document work on the characters of a text. On a text of lines they do what
the grammar says of the lines. -/
namespace NumericWorkbench
open Text

namespace Document

theorem isSpace_iff {c : Char} : isSpace c = true ↔ c = ' ' ∨ c = '\t' := by
  simp [isSpace]

theorem isWord_iff {c : Char} : isWord c = true ↔ c.isAlphanum = true ∨ c = '_' := by
  simp [isWord]

section Names
variable {name cs rest : List Char}

theorem identifier_append (h : IsIdentifier name) (hcs : ∀ c ∈ cs.head?, isWord c = false) :
    identifier (name ++ cs) = some (name,cs) := by
  obtain ⟨c,rest,rfl,hc,hrest⟩ := h
  have hwords : ∀ d ∈ rest, isWord d = true := fun d hd => isWord_iff.mpr (hrest d hd)
  rw [List.cons_append,identifier,if_pos (by simpa using hc),takeWhile_exact hwords hcs,
    dropWhile_exact hwords hcs]

theorem identifier_sound (h : identifier cs = some (name,rest)) :
    cs = name ++ rest ∧ IsIdentifier name := by
  cases cs with
  | nil => cases h
  | cons c cs =>
    rw [identifier] at h
    split at h
    · rename_i hc
      obtain ⟨rfl,rfl⟩ := Prod.mk.inj (Option.some.inj h)
      refine ⟨by simp,c,_,rfl,by simpa using hc,fun d hd => isWord_iff.mp ?_⟩
      exact List.mem_takeWhile_imp hd
    · cases h

theorem spacedIdentifier_append (h : Spaced front name)
    (hspace : ∀ c ∈ cs.head?, isSpace c = false) (hword : ∀ c ∈ cs.head?, isWord c = false) :
    spacedIdentifier (front ++ cs) = some (name,cs) := by
  obtain ⟨before,after,rfl,hbefore,hname,hafter⟩ := h
  have hfirst : ∀ c ∈ (name ++ (after ++ cs)).head?, isSpace c = false := by
    obtain ⟨c,rest,rfl,hc,-⟩ := hname
    rintro _ ⟨⟩
    rw [← Bool.not_eq_true,isSpace_iff]
    rintro (rfl | rfl) <;> exact absurd hc (by decide)
  have hnext : ∀ c ∈ (after ++ cs).head?, isWord c = false := by
    cases after with
    | nil => exact hword
    | cons c after =>
      rintro _ ⟨⟩
      rcases hafter c (by simp) with rfl | rfl <;> rfl
  rw [spacedIdentifier,List.append_assoc,List.append_assoc,
    dropWhile_exact (fun c hc => isSpace_iff.mpr (hbefore c hc)) hfirst,
    identifier_append hname hnext]
  simp [dropWhile_exact (fun c hc => isSpace_iff.mpr (hafter c hc)) hspace]

theorem spacedIdentifier_sound (h : spacedIdentifier cs = some (name,rest)) :
    ∃ front, cs = front ++ rest ∧ Spaced front name := by
  obtain ⟨⟨name',rest'⟩,hidentifier,heq⟩ := Option.bind_eq_some_iff.mp h
  obtain ⟨rfl,rfl⟩ := Prod.mk.inj (Option.some.inj heq)
  obtain ⟨hcs,hname⟩ := identifier_sound hidentifier
  refine ⟨cs.takeWhile isSpace ++ name' ++ rest'.takeWhile isSpace,?_,_,_,rfl,?_,hname,?_⟩
  · rw [List.append_assoc,List.takeWhile_append_dropWhile,List.append_assoc,← hcs,
      List.takeWhile_append_dropWhile]
  · exact fun c hc => isSpace_iff.mp (List.mem_takeWhile_imp hc)
  · exact fun c hc => isSpace_iff.mp (List.mem_takeWhile_imp hc)

end Names

section Parts
variable {cs rest : List Char} {name : String} {e : Entry}

theorem lineRest_sound {line : List Char} (h : lineRest cs = some (line,rest)) :
    cs = line ++ rest ∧ Plain line := by
  fun_induction lineRest cs generalizing line rest with
  | case1 | case2 | case3 =>
    cases h
    exact ⟨rfl,by simp,by simp⟩
  | case4 => cases h
  | case5 c cs hfeed _ hret ih =>
    obtain ⟨⟨line',rest'⟩,hline,heq⟩ := Option.map_eq_some_iff.mp h
    cases heq
    obtain ⟨rfl,hplain⟩ := ih hline
    refine ⟨rfl,?_,?_⟩
    · simpa [hplain.feed] using fun hc => hfeed hc.symm
    · simpa [hplain.ret] using fun hc => hret hc.symm

theorem lineEnd_sound {x : Unit} (h : lineEnd cs = some (x,rest)) :
    cs = [] ∧ rest = [] ∨ cs = '\n'::rest ∨ cs = '\r' :: '\n' :: rest := by
  unfold lineEnd at h
  split at h <;> simp_all

theorem title_sound (h : title cs = some (name,rest)) :
    ∃ front tail, cs = front ++ tail ∧ Spaced front name.toList ∧ lineEnd tail = some ((),rest) := by
  obtain ⟨⟨name',tail⟩,hname,h⟩ := Option.bind_eq_some_iff.mp h
  obtain ⟨⟨⟨⟩,rest'⟩,hend,heq⟩ := Option.bind_eq_some_iff.mp h
  cases heq
  obtain ⟨front,rfl,hspaced⟩ := spacedIdentifier_sound hname
  exact ⟨front,tail,rfl,by rwa [String.toList_ofList],hend⟩

theorem title_append {front tail : List Char} (hspaced : Spaced front name.toList)
    (hend : lineEnd tail = some ((),rest)) : title (front ++ tail) = some (name,rest) := by
  have hhead : ∀ c ∈ tail.head?, c = '\n' ∨ c = '\r' := by
    rcases lineEnd_sound hend with ⟨rfl,-⟩ | rfl | rfl <;> simp
  rw [title,spacedIdentifier_append hspaced]
  · simp [hend]
  · intro c hc
    rcases hhead c hc with rfl | rfl <;> rfl
  · intro c hc
    rcases hhead c hc with rfl | rfl <;> rfl

theorem entry_sound (h : entry cs = some (e,rest)) :
    ∃ front value tail, cs = front ++ ':'::(value ++ tail) ∧ Spaced front e.key.toList ∧
      Plain value ∧ e.value = String.ofList (trim value) ∧
      lineRest (value ++ tail) = some (value,tail) ∧ lineEnd tail = some ((),rest) := by
  obtain ⟨⟨key,tail⟩,hkey,h⟩ := Option.bind_eq_some_iff.mp h
  obtain ⟨⟨⟨⟩,tail'⟩,hcolon,h⟩ := Option.bind_eq_some_iff.mp h
  obtain ⟨⟨value,tail''⟩,hvalue,h⟩ := Option.bind_eq_some_iff.mp h
  obtain ⟨⟨⟨⟩,rest'⟩,hend,heq⟩ := Option.bind_eq_some_iff.mp h
  cases heq
  obtain ⟨front,rfl,hspaced⟩ := spacedIdentifier_sound hkey
  rw [Reader.char_eq_some hcolon]
  obtain ⟨rfl,hplain⟩ := lineRest_sound hvalue
  exact ⟨front,value,tail'',rfl,by rwa [String.toList_ofList],hplain,rfl,hvalue,hend⟩

theorem entry_append {front value tail : List Char} (hspaced : Spaced front e.key.toList)
    (hvalue : e.value = String.ofList (trim value))
    (hline : lineRest (value ++ tail) = some (value,tail)) (hend : lineEnd tail = some ((),rest)) :
    entry (front ++ ':'::(value ++ tail)) = some (e,rest) := by
  rw [entry,spacedIdentifier_append hspaced (by rintro _ ⟨⟩; rfl) (by rintro _ ⟨⟩; rfl)]
  simp [Reader.char,hline,hend,← hvalue]

end Parts

variable {line : Line} {ls : List Line}

theorem head?_following {c : Char} (ls : List Line) (h : c ∈ (following ls).head?) : c = '\n' := by
  cases ls with
  | nil => cases h
  | cons l ls => exact (Option.some.inj h).symm

@[simp] theorem lineEnd_following (ls : List Line) :
    lineEnd (following ls) = some ((),joined ls) := by
  cases ls with
  | nil => rfl
  | cons l ls => simp [following,lineEnd]

theorem lineEnd_cons {c : Char} {cs : List Char} {x : Unit × List Char}
    (h : lineEnd (c::cs) = some x) : c = '\n' ∨ c = '\r' := by
  unfold lineEnd at h
  split at h <;> simp_all

theorem lineRest_append (h : Plain line) (ls : List Line) :
    lineRest (line ++ following ls) = some (line,following ls) := by
  induction line with
  | nil =>
    cases ls with
    | nil => rfl
    | cons l ls => simp [following,lineRest]
  | cons c line ih =>
    obtain ⟨hfeed,hline⟩ := not_or.mp (mt List.mem_cons.mpr h.feed)
    obtain ⟨hret,hline'⟩ := not_or.mp (mt List.mem_cons.mpr h.ret)
    rw [List.cons_append,lineRest,ih ⟨hline,hline'⟩]
    · rfl
    · exact fun hc => hfeed hc.symm
    · exact fun _ hc _ => hret hc.symm
    · exact fun hc => hret hc.symm

theorem eq_append_of_feed {front rest : List Char} (h : line ++ following ls = front ++ rest)
    (hfeed : '\n' ∉ front) : ∃ more, line = front ++ more ∧ rest = more ++ following ls := by
  rcases List.append_eq_append_iff.mp h with ⟨more,hfront,hmore⟩ | ⟨more,hline,hrest⟩
  · cases more with
    | nil => exact ⟨[],by simpa using hfront.symm,by simpa using hmore.symm⟩
    | cons c more =>
      obtain rfl : c = '\n' := head?_following ls (by simp [hmore])
      simp [hfront] at hfeed
  · exact ⟨more,hline,hrest⟩

theorem title_joined {name : String} (h : IsTitle line name) (ls : List Line) :
    title (joined (line::ls)) = some (name,joined ls) := by
  rw [joined_cons]
  exact title_append h (lineEnd_following ls)

theorem isTitle_of_title {x : String × List Char} (hplain : Plain line)
    (h : title (joined (line::ls)) = some x) : ∃ name, IsTitle line name := by
  obtain ⟨name,rest⟩ := x
  obtain ⟨front,tail,hfront,hspaced,hend⟩ := title_sound h
  rw [joined_cons] at hfront
  obtain ⟨more,rfl,rfl⟩ := eq_append_of_feed hfront hspaced.feed_notMem
  cases more with
  | nil => exact ⟨name,by simpa [IsTitle] using hspaced⟩
  | cons c more =>
    rcases lineEnd_cons hend with rfl | rfl
    · exact absurd hplain.feed (by simp)
    · exact absurd hplain.ret (by simp)

theorem entry_joined {e : Entry} (hplain : Plain line) (h : IsEntry line e) (ls : List Line) :
    entry (joined (line::ls)) = some (e,joined ls) := by
  obtain ⟨front,rest,rfl,hspaced,hvalue⟩ := h
  have hrest : Plain rest :=
    ⟨fun hmem => hplain.feed (by simp [hmem]),fun hmem => hplain.ret (by simp [hmem])⟩
  rw [joined_cons,List.append_assoc]
  exact entry_append hspaced hvalue (lineRest_append hrest ls) (lineEnd_following ls)

theorem isEntry_of_entry {x : Entry × List Char} (h : entry (joined (line::ls)) = some x) :
    ∃ e, IsEntry line e := by
  obtain ⟨e,rest⟩ := x
  obtain ⟨front,value,tail,hfront,hspaced,-⟩ := entry_sound h
  rw [joined_cons,List.append_cons] at hfront
  obtain ⟨more,rfl,-⟩ := eq_append_of_feed hfront (by simpa using hspaced.feed_notMem)
  exact ⟨⟨e.key,String.ofList (trim more)⟩,front,more,by simp,hspaced,rfl⟩

theorem entry_eq_none (h : ¬StartsEntry ls) : entry (joined ls) = none := by
  cases ls with
  | nil => rfl
  | cons line ls => exact Option.eq_none_iff_forall_ne_some.mpr fun x hx => h (isEntry_of_entry hx)

/-- Lines of which each one can stand in a document that counts. -/
def Readable (ls : List Line) : Prop := ∀ line ∈ ls, Plain line ∧ line ≠ []

theorem many_entry {lines rest : List Line} {es : List Entry} (hreadable : Readable (lines ++ rest))
    (hlines : List.Forall₂ IsEntry lines es) (hrest : ¬StartsEntry rest) :
    Reader.many entry (joined (lines ++ rest)) = (es,joined rest) := by
  induction hlines with
  | nil => exact Reader.many_none (entry_eq_none hrest)
  | @cons line e lines es he _ ih =>
    obtain ⟨⟨hplain,hne⟩,hreadable⟩ := List.forall_mem_cons.mp hreadable
    rw [List.cons_append,Reader.many_some (entry_joined hplain he _) (joined_length_lt hne [] _),
      ih hreadable]

theorem sectionReader_group {lines rest : List Line} {s : Section}
    (hreadable : Readable (lines ++ rest)) (htitle : IsTitle line s.title) (hne : s.entries ≠ [])
    (hlines : List.Forall₂ IsEntry lines s.entries) (hrest : ¬StartsEntry rest) :
    sectionReader (joined (line::(lines ++ rest))) = some (s,joined rest) := by
  obtain ⟨name,es⟩ := s
  cases hlines with
  | nil => exact absurd rfl hne
  | @cons first e lines es he hlines =>
    obtain ⟨⟨hplain,-⟩,hreadable⟩ := List.forall_mem_cons.mp hreadable
    rw [sectionReader,title_joined htitle]
    simp [Reader.many1,entry_joined hplain he,many_entry hreadable hlines hrest]

theorem sectionReader_eq_none (hreadable : Readable ls) (h : ¬StartsGroup ls) :
    sectionReader (joined ls) = none := by
  refine Option.eq_none_iff_forall_ne_some.mpr fun x hx => ?_
  cases ls with
  | nil => cases hx
  | cons line ls =>
    obtain ⟨⟨name,rest⟩,htitle,hx⟩ := Option.bind_eq_some_iff.mp hx
    obtain ⟨y,hentries,-⟩ := Option.bind_eq_some_iff.mp hx
    obtain ⟨z,hentry,-⟩ := Option.bind_eq_some_iff.mp hentries
    obtain ⟨title',htitle'⟩ := isTitle_of_title (hreadable line (by simp)).1 htitle
    rw [title_joined htitle',Option.some.injEq,Prod.mk.injEq] at htitle
    obtain ⟨-,rfl⟩ := htitle
    refine h ⟨⟨_,htitle'⟩,?_⟩
    by_contra hnone
    rw [entry_eq_none hnone] at hentry
    cases hentry

theorem many_sectionReader {covered rest : List Line} {ss : List Section}
    (hreadable : Readable (covered ++ rest)) (hgroups : Groups covered ss)
    (hstops : Stops covered rest) :
    Reader.many sectionReader (joined (covered ++ rest)) = (ss,joined rest) := by
  induction hgroups with
  | nil => exact Reader.many_none (sectionReader_eq_none hreadable hstops.group)
  | @cons line lines covered s ss htitle hne hlines hgroups ih =>
    rw [List.cons_append,List.append_assoc] at hreadable ⊢
    obtain ⟨⟨-,hline⟩,hreadable⟩ := List.forall_mem_cons.mp hreadable
    have hrest : ¬StartsEntry rest := hstops.entry (by simp)
    have hsection := sectionReader_group hreadable htitle hne hlines (hgroups.not_startsEntry hrest)
    rw [Reader.many_some hsection (joined_length_lt hline lines _),
      ih (fun l hl => hreadable l (List.mem_append_right _ hl)) ⟨hstops.group,fun _ => hrest⟩]

theorem isKept_eq (line : Line) : isKept line = decide (Counts line) := by
  rw [Bool.eq_iff_iff,decide_eq_true_iff,isKept,Counts]
  generalize trim line = cs
  split
  · simp
  · simp
  · rename_i c cs hslashes
    have hne : ¬['/','/'] <+: c::cs := by
      rw [List.cons_prefix_cons]
      rintro ⟨rfl,rest,hrest⟩
      exact hslashes rest rfl hrest.symm
    simp [hne,@eq_comm _ c]

theorem kept_eq (text : String) : kept text.toList = joined (countingLines text) := by
  rw [kept,keptLines,funext isKept_eq]
  rfl

theorem readable_countingLines {text : String} (h : ReturnsEndLines text.toList) :
    Readable (countingLines text) := by
  intro line hline
  obtain ⟨hmem,hcounts⟩ := List.mem_filter.mp hline
  refine ⟨plain_of_mem_lines h line hmem,?_⟩
  rintro rfl
  exact (of_decide_eq_true hcounts).1 rfl

/-- The answer for a document of which some sections were read and some lines are left. -/
def answer (ss : List Section) : List Line → Except Error (List Section)
  | [] => .ok ss
  | line::_ => .error (.malformed (String.ofList (trim line)))

theorem parse_groups {text : String} (h : ReturnsEndLines text.toList)
    (hne : countingLines text ≠ []) {covered rest : List Line} {ss : List Section}
    (heq : countingLines text = covered ++ rest) (hgroups : Groups covered ss)
    (hstops : Stops covered rest) : parse text = answer ss rest := by
  have hreadable := readable_countingLines h
  have hnonempty : joined (countingLines text) ≠ [] :=
    fun hnil => hne ((joined_eq_nil fun line hline => (hreadable line hline).2).mp hnil)
  rw [parse,kept_eq]
  simp only [List.isEmpty_iff,if_neg hnonempty]
  rw [heq] at hreadable ⊢
  rw [many_sectionReader hreadable hgroups hstops]
  cases rest with
  | nil => rfl
  | cons line rest =>
    obtain ⟨hplain,hline⟩ := hreadable line (by simp)
    have hhead := head?_lines_joined hplain hline rest
    have hcons : joined (line::rest) ≠ [] := by simp [joined_cons,hline]
    obtain ⟨c,cs,hcs⟩ := List.exists_cons_of_ne_nil hcons
    rw [hcs] at hhead ⊢
    simp [hhead,answer]

/-- The parser is the grammar. Of a document that is no sequence of groups, the first line after
the longest run of groups is the one it complains about. -/
theorem parse_spec (text : String) (h : ReturnsEndLines text.toList) :
    (parse text = .error .empty ↔ countingLines text = []) ∧
    (∀ ss, parse text = .ok ss ↔ countingLines text ≠ [] ∧ Groups (countingLines text) ss) ∧
    (countingLines text ≠ [] → (¬∃ ss, Groups (countingLines text) ss) →
      ∃ covered line rest, LongestRun (countingLines text) covered ∧
        countingLines text = covered ++ line::rest ∧
        parse text = .error (.malformed (String.ofList (trim line)))) := by
  by_cases hempty : countingLines text = []
  · have hparse : parse text = .error .empty := by
      rw [parse,kept_eq,hempty]
      rfl
    simp [hparse,hempty]
  · obtain ⟨covered,ss,rest,heq,hgroups,hstops⟩ := exists_groups (countingLines text)
    have hparse := parse_groups h hempty heq hgroups hstops
    have hwhole : ∀ ss', Groups (countingLines text) ss' → parse text = .ok ss' := by
      intro ss' hss'
      exact parse_groups h hempty (List.append_nil _).symm hss' ⟨id,fun _ => id⟩
    have hlongest : LongestRun (countingLines text) covered := by
      refine ⟨⟨rest,heq.symm⟩,⟨ss,hgroups⟩,?_⟩
      rintro other ss' ⟨after,hafter⟩ hother
      exact hstops.longest hgroups hother (hafter.trans heq)
    refine ⟨?_,fun ss' => ⟨fun hok => ⟨hempty,?_⟩,fun hss' => hwhole ss' hss'.2⟩,fun _ hnone => ?_⟩
    · cases rest <;> simp [hparse,answer,hempty]
    · cases rest with
      | nil =>
        rw [hparse] at hok
        obtain rfl : ss = ss' := Except.ok.inj hok
        rwa [heq,List.append_nil]
      | cons line rest =>
        rw [hparse] at hok
        cases hok
    · cases rest with
      | nil => exact absurd ⟨ss,by rwa [heq,List.append_nil]⟩ hnone
      | cons line rest => exact ⟨covered,line,rest,hlongest,heq,hparse⟩

/-- The second title has no entry after it. -/
theorem parse_spec_windows :
    let text := "# roots\r\n evaluate\r\nfunction : x:1 \r\n\r\nplot\r\n"
    ReturnsEndLines text.toList ∧
    ∃ covered line rest, LongestRun (countingLines text) covered ∧
      countingLines text = covered ++ line::rest ∧ trim line = "plot".toList ∧
      parse text = .error (.malformed "plot") := by
  intro text
  have hreturns : ReturnsEndLines text.toList := by decide +kernel
  obtain ⟨-,hok,hmalformed⟩ := parse_spec text hreturns
  have hparse : parse text = .error (.malformed "plot") := by decide +kernel
  have hne : countingLines text ≠ [] := by decide +kernel
  have hnone : ¬∃ ss, Groups (countingLines text) ss := by
    rintro ⟨ss,hss⟩
    have hss := (hok ss).mpr ⟨hne,hss⟩
    rw [hparse] at hss
    cases hss
  obtain ⟨covered,line,rest,hlongest,heq,hline⟩ := hmalformed hne hnone
  rw [hparse,Except.error.injEq,Error.malformed.injEq] at hline
  refine ⟨hreturns,covered,line,rest,hlongest,heq,?_,hparse⟩
  rw [hline,String.toList_ofList]

end Document
end NumericWorkbench
