import NumericWorkbench.Proofs.Document.Values
import NumericWorkbench.Task.Task
/-! What the task of a section is made of. Keys that a kind needs are read once more after it is
known that they are there, so nothing stands in for them. -/
namespace NumericWorkbench
open Document Text

/-- The number in column `j` of row `i` of a text. -/
def numberAt (text : List Char) (i j : Nat) : Option Float := do
  let row ← (pieces '|' text)[i]?
  let number ← (pieces ';' row)[j]?
  Number.readReal number

/-- A text of as many rows and numbers as a matrix, which are its entries. -/
structure Writes {m n : Nat} (text : List Char) (a : Mat Float m n) : Prop where
  height : (pieces '|' text).length = m
  width : ∀ row ∈ pieces '|' text, (pieces ';' row).length = n
  entry : ∀ (i : Fin m) (j : Fin n), numberAt text i j = some (a.entry i j)

section Matrices
variable {text : List Char} {m n : Nat} {a : Mat Float m n}

theorem writes_ofRows {rows : List (List Float)}
    (hrows : (pieces '|' text).mapM (Number.readReals ';') = some rows)
    (hwidth : ∀ row ∈ rows, row.length = n) : Writes text (Mat.ofRows rows n hwidth) := by
  have hread := mapM_eq_some.mp hrows
  refine ⟨hread.length_eq,fun row hrow => ?_,fun i j => ?_⟩
  · obtain ⟨xs,hxs,hxs'⟩ := exists_of_mem_left hread row hrow
    rw [← hwidth xs hxs]
    exact (mapM_eq_some.mp hxs').length_eq
  · obtain ⟨row,hrow,hxs⟩ := exists_getElem? hrows i
    obtain ⟨number,hnumber,hx⟩ := exists_getElem? hxs (j.cast (hwidth _ (rows.get_mem i)).symm)
    rw [Fin.val_cast] at hnumber
    rw [Mat.ofRows,Mat.entry_ofFn,numberAt,hrow,Option.bind_eq_bind,Option.bind_some,hnumber]
    exact hx

namespace Writes

theorem positive (h : Writes text a) : 0 < m ∧ 0 < n := by
  have hm : 0 < m := h.height ▸ List.length_pos_iff.mpr (pieces_ne_nil '|' text)
  obtain ⟨row,hrow⟩ := List.exists_mem_of_ne_nil _ (pieces_ne_nil '|' text)
  exact ⟨hm,h.width row hrow ▸ List.length_pos_iff.mpr (pieces_ne_nil ';' row)⟩

theorem isFinite_entry (h : Writes text a) (i : Fin m) (j : Fin n) :
    (a.entry i j).isFinite = true := by
  obtain ⟨row,-,hrow⟩ := Option.bind_eq_some_iff.mp (h.entry i j)
  obtain ⟨number,-,hnumber⟩ := Option.bind_eq_some_iff.mp hrow
  exact Number.isFinite_of_readReal hnumber

end Writes
end Matrices

namespace Task
variable {α : Type} {s : Section} {key expected : String} {p : List Char → Option α}

/-- The value of a key. A key that is absent leaves the standard value. -/
def Says (s : Section) (key : String) (p : List Char → Option α) (standard x : α) : Prop :=
  match s.get? key with
  | none => x = standard
  | some text => p text.toList = some x

/-- The value of a key that is there. -/
def Gives (s : Section) (key : String) (p : List Char → Option α) (x : α) : Prop :=
  ∃ text, s.get? key = some text ∧ p text.toList = some x

/-- What the section says in its own words of the task that it describes. -/
inductive Describes : Section → Task → Prop
  | evaluate {s : Section} {function : String} {points : List Float} :
      s.title = Kind.evaluate.name → s.get? "function" = some function →
      Gives s "points" (Number.readReals ';') points → Describes s (.evaluate function points)
  | bisection {s : Section} {function : String} {a b tolerance : Float} {maxIterations : Nat} :
      s.title = Kind.bisection.name → s.get? "function" = some function →
      Gives s "interval" (Number.readReals ';') [a,b] →
      Says s "tolerance" Number.readReal Roots.Settings.standard.tolerance tolerance →
      Says s "max_iterations" Number.readCount
        (Roots.Settings.standard (α := Float)).maxIterations maxIterations →
      Describes s (.bisection function a b ⟨tolerance,maxIterations⟩)
  | scan {s : Section} {function : String} {start stop tolerance : Float} {steps : List Float}
      {maxIterations : Nat} :
      s.title = Kind.scan.name → s.get? "function" = some function →
      Says s "interval" (Number.readReals ';')
        [Roots.Scan.standard.start,Roots.Scan.standard.stop] [start,stop] →
      Says s "steps" (Number.readReals ';') Roots.Scan.standard.steps steps →
      Says s "tolerance" Number.readReal Roots.Scan.standard.tolerance tolerance →
      Says s "max_iterations" Number.readCount
        (Roots.Scan.standard (α := Float)).maxIterations maxIterations →
      Describes s (.scan function
        ⟨start,stop,steps,tolerance,maxIterations,Roots.Scan.standard.exactThreshold⟩)
  | linear {s : Section} {method : Linear.Method} {system : Linear.System} {text : String} :
      s.title = Kind.linear.name →
      Says s "method" (Linear.Method.ofName? ∘ String.ofList) .standard method →
      s.get? "matrix" = some text → Writes text.toList system.matrix →
      Gives s "rhs" (Number.readReals ';') system.rhs.toList → Describes s (.linear method system)

/-- The numbers of a task are finite, and there are some wherever a list of them is asked for. -/
def WellFormed : Task → Prop
  | evaluate _ points => points ≠ [] ∧ ∀ x ∈ points, x.isFinite = true
  | bisection _ a b settings =>
    a.isFinite = true ∧ b.isFinite = true ∧ settings.tolerance.isFinite = true
  | scan _ c =>
    c.start.isFinite = true ∧ c.stop.isFinite = true ∧ c.tolerance.isFinite = true ∧
      c.steps ≠ [] ∧ ∀ step ∈ c.steps, step.isFinite = true
  | linear _ system =>
    0 < system.m ∧ 0 < system.n ∧ 0 < system.p ∧
      (∀ i j, (system.matrix.entry i j).isFinite = true) ∧ ∀ i, (system.rhs.get i).isFinite = true

theorem require_eq_ok {value : String} : s.require key = .ok value ↔ s.get? key = some value := by
  rw [Section.require]
  cases s.get? key <;> simp

theorem says_of_read {found : Option α} (h : s.read key p expected = .ok found) (standard : α) :
    Says s key p standard (found.getD standard) := by
  rw [Section.read] at h
  rw [Says]
  cases hget : s.get? key with
  | none =>
    rw [hget] at h
    cases h
    rfl
  | some text =>
    simp only [hget] at h
    cases hp : p text.toList with
    | none => simp [hp] at h
    | some x =>
      rw [hp] at h
      cases h
      exact hp

theorem Says.gives {standard x : α} (h : Says s key p standard x) {text : String}
    (hget : s.get? key = some text) : Gives s key p x := by
  rw [Says,hget] at h
  exact ⟨text,hget,h⟩

theorem Says.property {standard x : α} {P : α → Prop} (h : Says s key p standard x)
    (hstandard : P standard) (hread : ∀ cs x, p cs = some x → P x) : P x := by
  rw [Says] at h
  split at h
  · exact h ▸ hstandard
  · exact hread _ _ h

theorem Gives.property {x : α} {P : α → Prop} (h : Gives s key p x)
    (hread : ∀ cs x, p cs = some x → P x) : P x := by
  obtain ⟨text,-,htext⟩ := h
  exact hread _ _ htext

theorem says_real {found : Option Float} (h : s.real key = .ok found) (standard : Float) :
    Says s key Number.readReal standard (found.getD standard) :=
  whole_readValue ▸ says_of_read h standard

theorem says_reals {found : Option (List Float)} (h : s.reals key = .ok found)
    (standard : List Float) : Says s key (Number.readReals ';') standard (found.getD standard) :=
  whole_readList ▸ says_of_read h standard

theorem says_interval {found : Option (Float × Float)} (h : readInterval s = .ok found)
    {a b a' b' : Float} (hends : found.getD (a,b) = (a',b')) :
    Says s "interval" (Number.readReals ';') [a,b] [a',b'] := by
  obtain ⟨ends,hread,h⟩ := bind_eq_ok.mp h
  have hsays := says_reals hread [a,b]
  split at h
  · cases h
    cases hends
    exact hsays
  · cases h
    cases hends
    exact hsays
  · cases h

theorem evaluateOf_describes {t : Task} (htitle : s.title = Kind.evaluate.name)
    (h : evaluateOf s = .ok t) : Describes s t := by
  obtain ⟨function,hfunction,h⟩ := bind_eq_ok.mp h
  obtain ⟨text,hpoints,h⟩ := bind_eq_ok.mp h
  obtain ⟨found,hfound,h⟩ := bind_eq_ok.mp h
  cases h
  rw [require_eq_ok] at hfunction hpoints
  exact .evaluate htitle hfunction ((says_reals hfound []).gives hpoints)

theorem bisectionOf_describes {t : Task} (htitle : s.title = Kind.bisection.name)
    (h : bisectionOf s = .ok t) : Describes s t := by
  obtain ⟨function,hfunction,h⟩ := bind_eq_ok.mp h
  obtain ⟨text,hinterval,h⟩ := bind_eq_ok.mp h
  obtain ⟨found,hfound,h⟩ := bind_eq_ok.mp h
  rcases hends : found.getD (0.0,0.0) with ⟨a,b⟩
  rw [hends] at h
  obtain ⟨tolerance,htolerance,h⟩ := bind_eq_ok.mp h
  obtain ⟨maxIterations,hmax,h⟩ := bind_eq_ok.mp h
  cases h
  rw [require_eq_ok] at hfunction hinterval
  exact .bisection htitle hfunction ((says_interval hfound hends).gives hinterval)
    (says_real htolerance _) (says_of_read hmax _)

theorem scanOf_describes {t : Task} (htitle : s.title = Kind.scan.name)
    (h : scanOf s = .ok t) : Describes s t := by
  obtain ⟨function,hfunction,h⟩ := bind_eq_ok.mp h
  obtain ⟨found,hfound,h⟩ := bind_eq_ok.mp h
  rcases hends : found.getD ((Roots.Scan.standard (α := Float)).start,Roots.Scan.standard.stop)
    with ⟨start,stop⟩
  simp only [hends] at h
  obtain ⟨steps,hsteps,h⟩ := bind_eq_ok.mp h
  obtain ⟨tolerance,htolerance,h⟩ := bind_eq_ok.mp h
  obtain ⟨maxIterations,hmax,h⟩ := bind_eq_ok.mp h
  cases h
  rw [require_eq_ok] at hfunction
  exact .scan htitle hfunction (says_interval hfound hends) (says_reals hsteps _)
    (says_real htolerance _) (says_of_read hmax _)

theorem says_method {method : Linear.Method} (h : readMethod s = .ok method) :
    Says s "method" (Linear.Method.ofName? ∘ String.ofList) .standard method := by
  rw [readMethod] at h
  rw [Says]
  cases hget : s.get? "method" with
  | none =>
    rw [hget] at h
    cases h
    rfl
  | some name =>
    simp only [hget] at h
    simp only [Function.comp_apply,String.ofList_toList]
    cases hname : Linear.Method.ofName? name with
    | none => simp [hname] at h
    | some method' =>
      rw [hname] at h
      cases h
      rfl

theorem linearOf_describes {t : Task} (htitle : s.title = Kind.linear.name)
    (h : linearOf s = .ok t) : Describes s t := by
  obtain ⟨method,hmethod,h⟩ := bind_eq_ok.mp h
  obtain ⟨text,hmatrix,h⟩ := bind_eq_ok.mp h
  obtain ⟨rhsText,hrhs,h⟩ := bind_eq_ok.mp h
  obtain ⟨rows,hrows,h⟩ := bind_eq_ok.mp h
  obtain ⟨rhs,hfound,h⟩ := bind_eq_ok.mp h
  obtain ⟨system,hsystem,h⟩ := bind_eq_ok.mp h
  cases h
  rw [require_eq_ok] at hmatrix hrhs
  obtain ⟨text',hmatrix',hread⟩ := (says_of_read hrows []).gives hmatrix
  obtain rfl : text = text' := by simpa [hmatrix] using hmatrix'
  rw [whole_readRows] at hread
  rw [systemOf] at hsystem
  split at hsystem
  · rename_i hwidth
    cases hsystem
    refine .linear htitle (says_method hmethod) hmatrix (writes_ofRows hread hwidth) ?_
    simpa using (says_reals hfound []).gives hrhs
  · cases hsystem

theorem ofName?_eq_some {title : String} {kind : Kind} (h : Kind.ofName? title = some kind) :
    title = kind.name := by
  simpa [eq_comm] using List.find?_some h

theorem describes_of_ofSection {t : Task} (h : ofSection s = .ok t) : Describes s t := by
  rw [ofSection] at h
  cases hkind : Kind.ofName? s.title with
  | none =>
    rw [hkind] at h
    cases h
  | some kind =>
    have htitle := ofName?_eq_some hkind
    rw [hkind] at h
    obtain ⟨⟨⟩,-,h⟩ := bind_eq_ok.mp h
    cases kind with
    | evaluate => exact evaluateOf_describes htitle h
    | bisection => exact bisectionOf_describes htitle h
    | scan => exact scanOf_describes htitle h
    | linear => exact linearOf_describes htitle h

theorem Describes.wellFormed {t : Task} (h : Describes s t) : t.WellFormed := by
  have hreal : ∀ cs x, Number.readReal cs = some x → x.isFinite = true :=
    fun _ _ => Number.isFinite_of_readReal
  have hreals : ∀ cs xs, Number.readReals ';' cs = some xs → xs ≠ [] ∧ ∀ x ∈ xs, x.isFinite = true :=
    fun _ _ => Number.readReals_eq_some
  cases h with
  | evaluate _ _ hpoints => exact hpoints.property hreals
  | bisection _ _ hinterval htolerance _ =>
    obtain ⟨ha,hb⟩ := List.forall_mem_cons.mp (hinterval.property hreals).2
    exact ⟨ha,hb _ (List.mem_singleton_self _),htolerance.property (by decide +kernel) hreal⟩
  | scan _ _ hinterval hsteps htolerance _ =>
    obtain ⟨hstart,hstop⟩ := List.forall_mem_cons.mp
      (hinterval.property (by decide +kernel) hreals).2
    exact ⟨hstart,hstop _ (List.mem_singleton_self _),htolerance.property (by decide +kernel) hreal,
      hsteps.property (by decide +kernel) hreals⟩
  | @linear _ system _ _ _ _ hmatrix hrhs =>
    obtain ⟨hne,hfinite⟩ := hrhs.property hreals
    refine ⟨hmatrix.positive.1,hmatrix.positive.2,?_,hmatrix.isFinite_entry,fun i => ?_⟩
    · have hlength : system.rhs.toList.length = system.p := Vector.length_toList
      exact hlength ▸ List.length_pos_iff.mpr hne
    · exact hfinite _ (by simp [Vector.get])

/-- Each section of an accepted document describes the task in its place, and no task is left with
an empty list, an empty matrix or a number that is not finite. -/
theorem parse_describes {text : String} {tasks : List Task} (h : parse text = .ok tasks) :
    ∃ ss, Document.parse text = .ok ss ∧ List.Forall₂ Describes ss tasks ∧
      ∀ t ∈ tasks, t.WellFormed := by
  obtain ⟨ss,hss,h⟩ := bind_eq_ok.mp h
  have hdescribes : List.Forall₂ Describes ss tasks :=
    (mapM_eq_ok.mp h).imp fun _ _ => describes_of_ofSection
  refine ⟨ss,hss,hdescribes,fun t ht => ?_⟩
  obtain ⟨s,-,hs⟩ := exists_of_mem_right hdescribes t ht
  exact hs.wellFormed

theorem parse_describes_two : ∃ tasks,
    parse "scan\nfunction: x\nsteps: 0,5\nlinear\nmatrix: 2; 1 | 1; 3\nrhs: 3; 5" = .ok tasks ∧
      List.Forall₂ Describes [⟨"scan",[⟨"function","x"⟩,⟨"steps","0,5"⟩]⟩,
        ⟨"linear",[⟨"matrix","2; 1 | 1; 3"⟩,⟨"rhs","3; 5"⟩]⟩] tasks ∧
      ∀ t ∈ tasks, t.WellFormed := by
  have hparse : Document.parse
      "scan\nfunction: x\nsteps: 0,5\nlinear\nmatrix: 2; 1 | 1; 3\nrhs: 3; 5" =
        .ok [⟨"scan",[⟨"function","x"⟩,⟨"steps","0,5"⟩]⟩,
          ⟨"linear",[⟨"matrix","2; 1 | 1; 3"⟩,⟨"rhs","3; 5"⟩]⟩] := by decide +kernel
  obtain ⟨tasks,htasks⟩ := exists_eq_ok
    (m := parse "scan\nfunction: x\nsteps: 0,5\nlinear\nmatrix: 2; 1 | 1; 3\nrhs: 3; 5")
    (by decide +kernel)
  obtain ⟨ss,hss,hdescribes,hformed⟩ := parse_describes htasks
  obtain rfl := Except.ok.inj (hss.symm.trans hparse)
  exact ⟨tasks,htasks,hdescribes,hformed⟩

end Task
end NumericWorkbench
