import NumericWorkbench.Proofs.Document.Values
/-! The values of keys that are several numbers. They are what the pieces between the separators
say, and one word that is no number refuses the whole value. -/
namespace NumericWorkbench
open Text

namespace Number

theorem readReal_blank {word : List Char} (h : ∀ c ∈ word, isBlank c = true) :
    readReal word = none := by
  have htrim : trim word = [] := by
    rw [trim,List.dropWhile_eq_nil_iff.mpr h]
    rfl
  rw [readReal,htrim]
  rfl

theorem readReals_eq_none {separator : Char} {cs : List Char} :
    readReals separator cs = none ↔ ∃ word, Stands [separator] word cs ∧ readReal word = none := by
  rw [readReals,mapM_eq_none]
  simp only [mem_pieces_iff]

end Number

namespace Document

theorem rows_eq_none {cs : List Char} :
    (pieces '|' cs).mapM (Number.readReals ';') = none ↔
      ∃ word, Stands [';','|'] word cs ∧ Number.readReal word = none := by
  simp only [mapM_eq_none,mem_pieces_iff,Number.readReals_eq_none,stands_pair_iff]
  constructor
  · rintro ⟨row,hrow,word,hword,hnone⟩
    exact ⟨word,⟨row,hrow,hword⟩,hnone⟩
  · rintro ⟨word,⟨row,hrow,hword⟩,hnone⟩
    exact ⟨row,hrow,word,hword,hnone⟩

theorem read_eq_error {α : Type} {s : Section} {key text expected : String}
    {p : List Char → Option α} (h : s.get? key = some text) :
    s.read key p expected = .error (s.invalid key text expected) ↔ p text.toList = none := by
  rw [Section.read,h]
  cases hp : p text.toList <;> simp [hp]

/-- A value of several numbers is read as a whole exactly if splitting it reads it, with the same
numbers. It is refused exactly for a word between two separators or ends that is no number, such
as one of blanks only, which a separator at an end, two separators in a row or an empty row
leave. -/
theorem separated_values :
    (∀ cs xs, readList.whole cs = some xs ↔ Number.readReals ';' cs = some xs) ∧
    (∀ cs rows, readRows.whole cs = some rows ↔
      List.Forall₂ (fun row xs => Number.readReals ';' row = some xs) (pieces '|' cs) rows) ∧
    (∀ (s : Section) (key text : String), s.get? key = some text →
      (s.reals key = .error (s.invalid key text "numbers separated by ';'") ↔
        ∃ word, Stands [';'] word text.toList ∧ Number.readReal word = none) ∧
      (s.rows key =
          .error (s.invalid key text "rows separated by '|' with numbers separated by ';'") ↔
        ∃ word, Stands [';','|'] word text.toList ∧ Number.readReal word = none)) ∧
    ∀ word, (∀ c ∈ word, isBlank c = true) → Number.readReal word = none := by
  refine ⟨fun cs xs => ?_,fun cs rows => ?_,fun s key text h => ⟨?_,?_⟩,
    fun word => Number.readReal_blank⟩
  · rw [whole_readList]
  · rw [whole_readRows,mapM_eq_some]
  · rw [Section.reals,read_eq_error h,whole_readList,Number.readReals_eq_none]
  · rw [Section.rows,read_eq_error h,whole_readRows,rows_eq_none]

theorem separated_values_gap :
    let s : Section := ⟨"linear",[⟨"matrix","1; 2 || 3; 4"⟩]⟩
    s.rows "matrix" = .error (s.invalid "matrix" "1; 2 || 3; 4"
      "rows separated by '|' with numbers separated by ';'") := by
  intro s
  obtain ⟨-,-,hrefused,hblank⟩ := separated_values
  obtain ⟨-,hrows⟩ := hrefused s "matrix" "1; 2 || 3; 4" (by decide)
  have hstands : Stands [';','|'] [] "1; 2 || 3; 4".toList :=
    ⟨"1; 2 |".toList,"| 3; 4".toList,by decide,by simp,by simp,by simp⟩
  exact hrows.mpr ⟨[],hstands,hblank [] (by simp)⟩

end Document
end NumericWorkbench
