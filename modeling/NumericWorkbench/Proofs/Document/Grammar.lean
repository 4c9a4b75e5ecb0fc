import NumericWorkbench.Document.Section
import Mathlib.Data.List.Forall2
/-! The grammar of task documents, line by line: title lines, entry lines, and groups of them. -/
namespace NumericWorkbench
namespace Document

abbrev Line := List Char

/-- A line counts if it is neither blank nor a comment. -/
def Counts (line : Line) : Prop :=
  Text.trim line ≠ [] ∧
    ¬['/','/'] <+: Text.trim line ∧ ¬['#'] <+: Text.trim line ∧ ¬['%'] <+: Text.trim line

instance (line : Line) : Decidable (Counts line) := inferInstanceAs (Decidable (_ ∧ _ ∧ _ ∧ _))

def countingLines (text : String) : List Line :=
  (Text.lines text.toList).filter fun line => Counts line

/-- `[A-Za-z_][A-Za-z0-9_]*` -/
def IsIdentifier (cs : List Char) : Prop :=
  ∃ c rest, cs = c::rest ∧ (c.isAlpha = true ∨ c = '_') ∧
    ∀ d ∈ rest, d.isAlphanum = true ∨ d = '_'

def Spaces (cs : List Char) : Prop := ∀ c ∈ cs, c = ' ' ∨ c = '\t'

/-- A name between spaces. -/
def Spaced (cs name : List Char) : Prop :=
  ∃ before after, cs = before ++ name ++ after ∧
    Spaces before ∧ IsIdentifier name ∧ Spaces after

def IsTitle (line : Line) (title : String) : Prop := Spaced line title.toList

/-- A key stands before the first colon, and the trimmed rest is its value. -/
def IsEntry (line : Line) (e : Entry) : Prop :=
  ∃ front rest, line = front ++ ':'::rest ∧ Spaced front e.key.toList ∧
    e.value = String.ofList (Text.trim rest)

/-- Lines as a sequence of groups. A group is a title with one or more entries. -/
inductive Groups : List Line → List Section → Prop
  | nil : Groups [] []
  | cons {line : Line} {lines rest : List Line} {s : Section} {ss : List Section} :
      IsTitle line s.title → s.entries ≠ [] → List.Forall₂ IsEntry lines s.entries →
      Groups rest ss → Groups (line::(lines ++ rest)) (s::ss)

/-- No longer part at the start of the lines is a sequence of groups. -/
structure LongestRun (lines covered : List Line) : Prop where
  start : covered <+: lines
  groups : ∃ ss, Groups covered ss
  longest : ∀ other ss, other <+: lines → Groups other ss → other.length ≤ covered.length

theorem Spaced.mem {cs name : List Char} (h : Spaced cs name) {c : Char} (hc : c ∈ cs) :
    (c = ' ' ∨ c = '\t') ∨ c.isAlphanum = true ∨ c = '_' := by
  obtain ⟨before,after,rfl,hbefore,⟨d,rest,rfl,hd,hrest⟩,hafter⟩ := h
  simp only [List.mem_append,List.mem_cons,or_assoc] at hc
  rcases hc with hc | rfl | hc | hc
  · exact .inl (hbefore c hc)
  · exact .inr (hd.imp_left fun halpha => by simp [Char.isAlphanum,halpha])
  · exact .inr (hrest c hc)
  · exact .inl (hafter c hc)

theorem Spaced.colon_notMem {cs name : List Char} (h : Spaced cs name) : ':' ∉ cs :=
  fun hmem => absurd (h.mem hmem) (by decide)

theorem Spaced.feed_notMem {cs name : List Char} (h : Spaced cs name) : '\n' ∉ cs :=
  fun hmem => absurd (h.mem hmem) (by decide)

theorem IsTitle.not_isEntry {line : Line} {title : String} (h : IsTitle line title) (e : Entry) :
    ¬IsEntry line e := by
  rintro ⟨front,rest,rfl,-⟩
  exact Spaced.colon_notMem h (by simp)

def StartsEntry : List Line → Prop
  | [] => False
  | line::_ => ∃ e, IsEntry line e

def StartsGroup : List Line → Prop
  | [] => False
  | line::rest => (∃ title, IsTitle line title) ∧ StartsEntry rest

theorem StartsEntry.append {ls : List Line} (h : StartsEntry ls) (rest : List Line) :
    StartsEntry (ls ++ rest) := by
  cases ls with
  | nil => exact h.elim
  | cons line ls => exact h

theorem StartsGroup.append {ls : List Line} (h : StartsGroup ls) (rest : List Line) :
    StartsGroup (ls ++ rest) := by
  cases ls with
  | nil => exact h.elim
  | cons line ls => exact ⟨h.1,h.2.append rest⟩

theorem StartsGroup.not_startsEntry {ls : List Line} (h : StartsGroup ls) : ¬StartsEntry ls := by
  cases ls with
  | nil => exact h.elim
  | cons line ls =>
    obtain ⟨⟨title,htitle⟩,-⟩ := h
    rintro ⟨e,he⟩
    exact htitle.not_isEntry e he

theorem Groups.startsGroup {ls : List Line} {ss : List Section} (h : Groups ls ss) (hne : ls ≠ []) :
    StartsGroup ls := by
  cases h with
  | nil => exact absurd rfl hne
  | @cons line lines rest s ss htitle hentries hlines hrest =>
    cases hs : s.entries with
    | nil => exact absurd hs hentries
    | cons e es =>
      rw [hs] at hlines
      cases hlines with
      | cons he _ => exact ⟨⟨_,htitle⟩,⟨_,he⟩⟩

theorem Groups.not_startsEntry {ls rest : List Line} {ss : List Section} (h : Groups ls ss)
    (hrest : ¬StartsEntry rest) : ¬StartsEntry (ls ++ rest) := by
  by_cases hne : ls = []
  · rwa [hne,List.nil_append]
  · exact ((h.startsGroup hne).append rest).not_startsEntry

theorem exists_isEntry {lines : List Line} {es : List Entry} (h : List.Forall₂ IsEntry lines es) :
    ∀ line ∈ lines, ∃ e, IsEntry line e := by
  induction h with
  | nil => simp
  | cons he _ ih => exact List.forall_mem_cons.mpr ⟨⟨_,he⟩,ih⟩

theorem eq_nil_of_not_startsEntry {lines rest : List Line}
    (hlines : ∀ line ∈ lines, ∃ e, IsEntry line e) (h : ¬StartsEntry (lines ++ rest)) :
    lines = [] := by
  cases lines with
  | nil => rfl
  | cons line lines => exact absurd (hlines line (by simp)) h

/-- After the groups before `rest`, no further line can be read. -/
structure Stops (covered rest : List Line) : Prop where
  group : ¬StartsGroup rest
  entry : covered ≠ [] → ¬StartsEntry rest

theorem Stops.longest {covered rest : List Line} {ss : List Section} (hgroups : Groups covered ss)
    (hstops : Stops covered rest) {other after : List Line} {ss' : List Section}
    (hother : Groups other ss') (heq : other ++ after = covered ++ rest) :
    other.length ≤ covered.length := by
  induction hgroups generalizing other ss' with
  | nil =>
    by_contra hlong
    have hstart := (hother.startsGroup (by rintro rfl; simp at hlong)).append after
    rw [heq] at hstart
    exact hstops.group hstart
  | @cons line lines covered s ss _ _ hlines hgroups ih =>
    cases hother with
    | nil => simp
    | @cons line' lines' other s' ss' _ _ hlines' hother =>
      simp only [List.cons_append,List.append_assoc,List.cons.injEq] at heq
      have hrest : ¬StartsEntry rest := hstops.entry (by simp)
      have hlength := ih ⟨hstops.group,fun _ => hrest⟩ hother
      -- one of the two groups has more entries; a title cannot be one of them
      rcases List.append_eq_append_iff.mp heq.2 with ⟨more,rfl,hmore⟩ | ⟨more,rfl,hmore⟩
      · by_cases hne : other = []
        · simp [hne]
        · have hnone := ((hother.startsGroup hne).append after).not_startsEntry
          rw [hmore] at hnone
          obtain rfl := eq_nil_of_not_startsEntry
            (fun l hl => exists_isEntry hlines l (List.mem_append_right _ hl)) hnone
          simpa using hlength hmore
      · have hnone := hgroups.not_startsEntry hrest
        rw [hmore] at hnone
        obtain rfl := eq_nil_of_not_startsEntry
          (fun l hl => exists_isEntry hlines' l (List.mem_append_right _ hl)) hnone
        simpa using hlength hmore.symm

theorem exists_entries (ls : List Line) :
    ∃ lines es rest, ls = lines ++ rest ∧ List.Forall₂ IsEntry lines es ∧ ¬StartsEntry rest := by
  induction ls with
  | nil => exact ⟨[],[],[],rfl,.nil,id⟩
  | cons line ls ih =>
    by_cases hline : ∃ e, IsEntry line e
    · obtain ⟨e,he⟩ := hline
      obtain ⟨lines,es,rest,rfl,hlines,hrest⟩ := ih
      exact ⟨line::lines,e::es,rest,rfl,.cons he hlines,hrest⟩
    · exact ⟨[],[],line::ls,rfl,.nil,hline⟩

theorem exists_groups (ls : List Line) :
    ∃ covered ss rest, ls = covered ++ rest ∧ Groups covered ss ∧ Stops covered rest := by
  induction hn : ls.length using Nat.strongRecOn generalizing ls with
  | ind n ih =>
    by_cases hstart : StartsGroup ls
    · cases ls with
      | nil => exact hstart.elim
      | cons line ls =>
        obtain ⟨⟨title,htitle⟩,hentry⟩ := hstart
        obtain ⟨lines,es,rest,rfl,hlines,hrest⟩ := exists_entries ls
        have hlt : rest.length < n := by
          rw [← hn,List.length_cons,List.length_append]
          omega
        obtain ⟨covered,ss,rest,rfl,hgroups,hstops⟩ := ih rest.length hlt rest rfl
        have hne : es ≠ [] := by
          rintro rfl
          rw [List.forall₂_nil_right_iff.mp hlines] at hentry
          exact hrest hentry
        refine ⟨line::(lines ++ covered),⟨title,es⟩::ss,rest,by simp,
          .cons htitle hne hlines hgroups,hstops.group,fun _ => ?_⟩
        by_cases hcovered : covered = []
        · rwa [hcovered] at hrest
        · exact hstops.entry hcovered
    · exact ⟨[],[],ls,rfl,.nil,hstart,fun h => absurd rfl h⟩

end Document
end NumericWorkbench
