import NumericWorkbench.Document.Section
import NumericWorkbench.Proofs.Document.Reading
import NumericWorkbench.Proofs.Text.Pieces
import NumericWorkbench.Proofs.Except
/-! The values of keys. A value is read number by number, and the whole of it says what the pieces
between its separators say. -/
namespace NumericWorkbench
open Text

namespace Number
variable {cs : List Char} {x : Float}

theorem isFinite_of_readReal (h : readReal cs = some x) : x.isFinite = true := by
  rw [readReal] at h
  split at h
  · cases h
  · exact (Option.filter_eq_some_iff.mp h).2

theorem isTyped_or_isBlank (h : readReal cs = some x) (c : Char) (hc : c ∈ cs) :
    isTyped c = true ∨ isBlank c = true := by
  rw [readReal] at h
  split at h
  · cases h
  · rename_i hnot
    simp only [Bool.or_eq_true,not_or,Bool.not_eq_true,Bool.not_eq_false'] at hnot
    by_cases hmem : c ∈ trim cs
    · exact .inl (List.all_eq_true.mp (by simpa using hnot.2) c hmem)
    · exact .inr (isBlank_of_notMem_trim hc hmem)

theorem readReals_eq_some {separator : Char} {xs : List Float}
    (h : readReals separator cs = some xs) : xs ≠ [] ∧ ∀ x ∈ xs, x.isFinite = true := by
  have hpieces := mapM_eq_some.mp h
  constructor
  · rintro rfl
    exact pieces_ne_nil separator cs (List.forall₂_nil_right_iff.mp hpieces)
  · intro x hx
    obtain ⟨p,-,hp⟩ := exists_of_mem_right hpieces x hx
    exact isFinite_of_readReal hp

end Number

namespace Reader
variable {α : Type} {p : Reader α} {f : List Char → Option α} {cs rest : List Char} {sep : Char}
  {ends : List Char}

/-- A reader of what `f` says about a text up to the next end. -/
structure Fields (p : Reader α) (f : List Char → Option α) (ends : List Char) : Prop where
  suffix : ∀ {cs rest x}, p cs = some (x,rest) → rest <:+ cs
  reads : ∀ {cs rest x}, (∀ c ∈ rest.head?, c ∈ ends) →
    (p cs = some (x,rest) ↔ ∃ used, cs = used ++ rest ∧ f used = some x)
  clean : ∀ {used x}, f used = some x → ∀ c ∈ ends, c ∉ used

theorem whole_eq_some {x : α} : p.whole cs = some x ↔ p cs = some (x,[]) := by
  unfold whole
  split
  · simp [*]
  · rename_i hp
    exact ⟨fun h => (nomatch h),fun h => (hp x h).elim⟩

theorem Fields.whole_eq (h : Fields p f ends) (cs : List Char) : p.whole cs = f cs := by
  refine Option.ext fun x => ?_
  rw [whole_eq_some,h.reads (by simp)]
  simp

theorem after_eq_some {x : α} :
    after sep p cs = some (x,rest) ↔ ∃ tail, cs = sep::tail ∧ p tail = some (x,rest) := by
  constructor
  · intro h
    obtain ⟨⟨⟨⟩,tail⟩,hchar,hp⟩ := Option.bind_eq_some_iff.mp h
    exact ⟨tail,char_eq_some hchar,hp⟩
  · rintro ⟨tail,rfl,hp⟩
    simp [after,char,hp]

namespace Fields

theorem consumes_after (h : Fields p f ends) : Consumes (after sep p) := by
  intro cs x rest hp
  obtain ⟨tail,rfl,htail⟩ := after_eq_some.mp hp
  obtain ⟨used,rfl⟩ := h.suffix htail
  exact ⟨sep::used,rfl,by simp⟩

/-- Values with separators between them are read as if one more separator stood in front. -/
theorem separated_eq_some (h : Fields p f ends) {xs : List α} :
    separated sep p cs = some (xs,rest) ↔
      Reads (after sep p) (sep::cs) xs rest ∧ xs ≠ [] ∧ after sep p rest = none := by
  constructor
  · intro hxs
    obtain ⟨⟨x,left⟩,hx,hxs⟩ := Option.bind_eq_some_iff.mp hxs
    cases hxs
    obtain ⟨hreads,hend⟩ := many_reads h.consumes_after left rfl
    have hafter : after sep p (sep::cs) = some (x,left) := after_eq_some.mpr ⟨cs,rfl,hx⟩
    exact ⟨.more hafter (h.consumes_after.length_lt hafter) hreads,by simp,hend⟩
  · rintro ⟨hreads,hne,hend⟩
    cases hreads with
    | done => exact absurd rfl hne
    | more hafter _ hreads =>
      obtain ⟨tail,heq,hx⟩ := after_eq_some.mp hafter
      cases heq
      simp [separated,hx,many_eq hreads hend]

theorem exists_pieces (h : Fields p f (sep::ends)) (hrest : ∀ c ∈ rest.head?, c ∈ ends)
    {xs : List α} (hreads : Reads (after sep p) cs xs rest) (hxs : xs ≠ []) :
    ∃ used, cs = sep::(used ++ rest) ∧ (pieces sep used).mapM f = some xs := by
  induction hreads with
  | done => exact absurd rfl hxs
  | @more cs left rest x xs hx _ hreads ih =>
    obtain ⟨tail,rfl,hp⟩ := after_eq_some.mp hx
    cases hreads with
    | done =>
      obtain ⟨used,rfl,hused⟩ := (h.reads fun c hc => by simp [hrest c hc]).mp hp
      refine ⟨used,rfl,?_⟩
      rw [pieces_of_notMem (h.clean hused sep (by simp))]
      simp [hused]
    | more =>
      obtain ⟨others,rfl,hothers⟩ := ih hrest (by simp)
      obtain ⟨used,rfl,hused⟩ := (h.reads (by simp)).mp hp
      refine ⟨used ++ sep::others,by simp,?_⟩
      rw [pieces_separator,pieces_of_notMem (h.clean hused sep (by simp))]
      simp [hused,hothers]

theorem reads_pieces (h : Fields p f (sep::ends)) (hrest : ∀ c ∈ rest.head?, c ∈ ends)
    {used : List Char} {xs : List α} (hxs : (pieces sep used).mapM f = some xs) :
    Reads (after sep p) (sep::(used ++ rest)) xs rest := by
  have step {front tail : List Char} {x : α} (hfront : f front = some x)
      (htail : ∀ c ∈ tail.head?, c ∈ sep::ends) :
      after sep p (sep::(front ++ tail)) = some (x,tail) :=
    after_eq_some.mpr ⟨_,rfl,(h.reads htail).mpr ⟨front,rfl,hfront⟩⟩
  induction xs generalizing used with
  | nil => exact absurd (List.forall₂_nil_right_iff.mp (mapM_eq_some.mp hxs)) (pieces_ne_nil _ _)
  | cons x xs ih =>
    by_cases hsep : sep ∈ used
    · obtain ⟨front,others,rfl,hfront⟩ := List.eq_append_cons_of_mem hsep
      rw [pieces_separator,pieces_of_notMem hfront] at hxs
      obtain ⟨hx,hothers⟩ := List.forall₂_cons.mp (mapM_eq_some.mp hxs)
      have hafter : after sep p (sep::(front ++ sep::(others ++ rest))) =
          some (x,sep::(others ++ rest)) := step hx (by simp)
      rw [List.append_assoc,List.cons_append]
      exact .more hafter (h.consumes_after.length_lt hafter) (ih (mapM_eq_some.mpr hothers))
    · rw [pieces_of_notMem hsep] at hxs
      obtain ⟨hx,hnil⟩ := List.forall₂_cons.mp (mapM_eq_some.mp hxs)
      obtain rfl := List.forall₂_nil_left_iff.mp hnil
      have hafter := step hx fun c hc => List.mem_cons_of_mem sep (hrest c hc)
      exact .more hafter (h.consumes_after.length_lt hafter) .done

theorem separated (h : Fields p f (sep::ends)) (hsep : sep ∉ ends) :
    Fields (separated sep p) (fun cs => (pieces sep cs).mapM f) ends where
  suffix hxs := by
    obtain ⟨⟨x,left⟩,hx,hxs⟩ := Option.bind_eq_some_iff.mp hxs
    cases hxs
    have hconsumes : Consumes (after sep p) := h.consumes_after
    exact ((many_reads hconsumes left rfl).1.suffix hconsumes).trans (h.suffix hx)
  reads := by
    intro cs rest xs hrest
    have hend : after sep p rest = none := by
      refine Option.eq_none_iff_forall_ne_some.mpr ?_
      rintro ⟨x,left⟩ hx
      obtain ⟨tail,rfl,-⟩ := after_eq_some.mp hx
      exact hsep (hrest sep rfl)
    rw [h.separated_eq_some]
    constructor
    · rintro ⟨hreads,hne,-⟩
      obtain ⟨used,heq,hused⟩ := h.exists_pieces hrest hreads hne
      exact ⟨used,by simpa using heq,hused⟩
    · rintro ⟨used,rfl,hused⟩
      refine ⟨h.reads_pieces hrest hused,?_,hend⟩
      rintro rfl
      exact pieces_ne_nil sep used (List.forall₂_nil_right_iff.mp (mapM_eq_some.mp hused))
  clean := by
    intro used xs hused c hc hmem
    have hne : c ≠ sep := fun heq => hsep (heq ▸ hc)
    obtain ⟨piece,hpiece,hmem⟩ := exists_piece_of_mem hmem hne
    obtain ⟨x,-,hx⟩ := exists_of_mem_left (mapM_eq_some.mp hused) piece hpiece
    exact h.clean hx c (by simp [hc]) hmem

end Fields
end Reader

namespace Document

theorem ends_notMem_of_readReal {used : List Char} {x : Float} (h : Number.readReal used = some x) :
    ∀ c ∈ [';','|'], c ∉ used := by
  intro c hc hmem
  have hends : Number.isTyped c = false ∧ isBlank c = false := by
    rcases List.mem_cons.mp hc with rfl | hc
    · decide
    · rw [List.mem_singleton] at hc
      subst hc
      decide
  rcases Number.isTyped_or_isBlank h c hmem with htyped | hblank
  · simp [hends.1] at htyped
  · simp [hends.2] at hblank

theorem fields_readValue : Reader.Fields readValue Number.readReal [';','|'] where
  suffix h := by
    obtain ⟨x,-,heq⟩ := Option.map_eq_some_iff.mp h
    cases heq
    exact List.dropWhile_suffix _
  reads := by
    intro cs rest x hrest
    constructor
    · intro h
      obtain ⟨x,hx,heq⟩ := Option.map_eq_some_iff.mp h
      cases heq
      exact ⟨_,List.takeWhile_append_dropWhile.symm,hx⟩
    · rintro ⟨used,rfl,hused⟩
      have hclean : ∀ c ∈ used, (!(c == ';' || c == '|')) = true := by
        intro c hc
        simpa [not_or] using fun h => ends_notMem_of_readReal hused c h hc
      have hstop : ∀ c ∈ rest.head?, (!(c == ';' || c == '|')) = false := by
        intro c hc
        simpa [or_iff_not_imp_left] using hrest c hc
      rw [readValue,takeWhile_exact hclean hstop,dropWhile_exact hclean hstop,hused]
      rfl
  clean := ends_notMem_of_readReal

theorem whole_readValue : readValue.whole = Number.readReal := funext fields_readValue.whole_eq

theorem whole_readList : readList.whole = Number.readReals ';' :=
  funext (fields_readValue.separated (by decide)).whole_eq

theorem whole_readRows :
    readRows.whole = fun cs => (pieces '|' cs).mapM (Number.readReals ';') :=
  funext ((fields_readValue.separated (by decide)).separated (by decide)).whole_eq

end Document
end NumericWorkbench
