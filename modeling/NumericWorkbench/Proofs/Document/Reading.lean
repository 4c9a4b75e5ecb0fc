import NumericWorkbench.Document.Reader
import Mathlib.Data.List.Basic
/-! Readers that are repeated: what they read one after the other, and what they leave. -/
namespace NumericWorkbench
namespace Reader
variable {α : Type} {p : Reader α} {cs rest : List Char} {xs : List α}

theorem char_eq_some {c : Char} {x : Unit} (h : char c cs = some (x,rest)) : cs = c::rest := by
  cases cs with
  | nil => cases h
  | cons d cs =>
    rw [char] at h
    split at h
    · simp_all
    · cases h

theorem many_none (h : p cs = none) : many p cs = ([],cs) := by
  rw [many,h]

theorem many_some {x : α} (h : p cs = some (x,rest)) (hlt : rest.length < cs.length) :
    many p cs = (x::(many p rest).1,(many p rest).2) := by
  rw [many,h]
  simp [hlt]

/-- Values that are read one after the other, each from a shorter text. -/
inductive Reads (p : Reader α) : List Char → List α → List Char → Prop
  | done {cs : List Char} : Reads p cs [] cs
  | more {cs rest left : List Char} {x : α} {xs : List α} : p cs = some (x,rest) →
      rest.length < cs.length → Reads p rest xs left → Reads p cs (x::xs) left

theorem many_eq (h : Reads p cs xs rest) (hend : p rest = none) : many p cs = (xs,rest) := by
  induction h with
  | done => exact many_none hend
  | more hx hlt _ ih => rw [many_some hx hlt,ih hend]

/-- A reader that takes something off the text whenever it reads. -/
def Consumes (p : Reader α) : Prop :=
  ∀ cs x rest, p cs = some (x,rest) → ∃ used, cs = used ++ rest ∧ used ≠ []

theorem Consumes.length_lt (hp : Consumes p) {x : α} (h : p cs = some (x,rest)) :
    rest.length < cs.length := by
  obtain ⟨used,rfl,hne⟩ := hp cs x rest h
  have hpos := List.length_pos_iff.mpr hne
  rw [List.length_append]
  omega

theorem many_reads (hp : Consumes p) (cs : List Char) (h : many p cs = (xs,rest)) :
    Reads p cs xs rest ∧ p rest = none := by
  induction hn : cs.length using Nat.strongRecOn generalizing cs xs rest with
  | ind n ih =>
    cases hx : p cs with
    | none =>
      rw [many_none hx] at h
      cases h
      exact ⟨.done,hx⟩
    | some y =>
      obtain ⟨x,rest'⟩ := y
      have hlt := hp.length_lt hx
      rw [many_some hx hlt] at h
      cases h
      obtain ⟨hreads,hend⟩ := ih rest'.length (hn ▸ hlt) rest' rfl rfl
      exact ⟨.more hx hlt hreads,hend⟩

namespace Reads

theorem suffix (hp : Consumes p) (h : Reads p cs xs rest) : rest <:+ cs := by
  induction h with
  | done => exact List.suffix_refl _
  | more hx _ _ ih =>
    obtain ⟨used,rfl,-⟩ := hp _ _ _ hx
    exact ih.trans (List.suffix_append used _)

theorem ne_nil (h : Reads p cs xs rest) (hxs : xs ≠ []) : cs ≠ [] := by
  cases h with
  | done => exact absurd rfl hxs
  | more _ hlt _ => exact List.ne_nil_of_length_pos (by omega)

theorem values_ne_nil (h : Reads p cs xs []) (hcs : cs ≠ []) : xs ≠ [] := by
  cases h with
  | done => exact absurd rfl hcs
  | more => simp

theorem exists_first (h : Reads p cs xs []) (hcs : cs ≠ []) : ∃ x rest, p cs = some (x,rest) := by
  cases h with
  | done => exact absurd rfl hcs
  | more hx => exact ⟨_,_,hx⟩

theorem getLast?_ne {c : Char} (hp : Consumes p)
    (hlast : ∀ cs x, p cs = some (x,[]) → cs.getLast? ≠ some c) (h : Reads p cs xs [])
    (hxs : xs ≠ []) : cs.getLast? ≠ some c := by
  generalize hnil : ([] : List Char) = left at h
  induction h with
  | done => exact absurd rfl hxs
  | @more cs rest left x xs hx hlt hreads ih =>
    cases hreads with
    | done => exact hlast cs x (hnil ▸ hx)
    | more hnext hshort hreads =>
      obtain ⟨used,rfl,-⟩ := hp _ _ _ hx
      rw [List.getLast?_append_of_ne_nil used (List.ne_nil_of_length_pos (by omega))]
      exact ih (by simp) hnil

end Reads
end Reader
end NumericWorkbench
