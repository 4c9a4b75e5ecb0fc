import NumericWorkbench.Task.Run
import NumericWorkbench.Proofs.Linear.Factorization
/-! Which tasks have an answer. The right-hand side of a linear system may have any height, and all
checks of it but one come before the diagnosis of a singular matrix. -/
namespace NumericWorkbench
namespace Linear
open Arithmetic

section Heights
variable {α : Type} [Arithmetic α] {m n p : Nat}

theorem checkSystem_of_height (positive : 0 < n) (height : p ≠ n) :
    checkSystem n n p = .error (.rightSide p n) := by
  rw [checkSystem,checkSquare_self positive,ok_bind]
  exact dif_neg height

theorem exists_misfit (height : p ≠ m) : ∃ misfit, checkSystem m n p = .error misfit := by
  cases h : checkSystem m n p with
  | error misfit => exact ⟨misfit,rfl⟩
  | ok fits =>
    obtain ⟨square,same,-⟩ := fits.down
    exact absurd (same.trans square.symm) height

theorem solveWithStages_misfit {misfit : Misfit} (h : checkSystem m n p = .error misfit)
    (a : Mat α m n) (b : Vector α p) : solveWithStages a b = .error (.dimension misfit) := by
  rw [solveWithStages,h]

theorem Factors.solve_misfit {misfit : Misfit} (h : checkSystem n n p = .error misfit)
    (f : Factors α n) (b : Vector α p) : f.solve b = .error (.dimension misfit) := by
  rw [solve,solveFactored,h]

theorem square_of_factorize {a : Mat α m n} {f : Factors α n} (h : factorize a = .ok f) :
    m = n := by
  rw [factorize] at h
  cases hsquare : checkSquare m n with
  | error misfit => simp [hsquare] at h
  | ok square => exact square.down.1

end Heights

/-- A system that has no answer. The factorization fails, so that nobody has looked at the height of
the right-hand side when the diagnosis sets it beside the matrix. -/
structure Undiagnosable (method : Method) (s : System) : Prop where
  method : method = .lu
  singular : ∃ stage pivot, factorize s.matrix = .error (.singular stage pivot)
  height : s.p ≠ s.m

theorem solve_eliminates {method : Method} {s : System} {misfit : Misfit}
    (h : method.eliminates = true) (hmisfit : checkSystem s.m s.n s.p = .error misfit) :
    solve method s = .error (.dimension misfit) := by
  rw [solve,if_pos h,solveWithStages_misfit hmisfit]
  rfl

theorem solve_lu (s : System) : solve .lu s = do
    let factors ← factorize s.matrix
    let x ← factors.solve s.rhs
    return ⟨.lu,s,none,some (factors,x),conditionNumber s.matrix⟩ := by
  unfold solve
  cases factorize s.matrix with
  | error e => rfl
  | ok factors => cases h : factors.solve s.rhs <;> simp [Method.eliminates,Method.factorizes,h]

theorem solve_of_height {method : Method} {s : System} (square : s.m = s.n) (positive : 0 < s.n)
    (height : s.p ≠ s.n) (h : ¬Undiagnosable method s) :
    solve method s = .error (.dimension (.rightSide s.p s.n)) := by
  obtain ⟨m,n,p,a,b⟩ := s
  obtain rfl : m = n := square
  have hmisfit := checkSystem_of_height positive height
  cases method with
  | gauss | both => exact solve_eliminates rfl hmisfit
  | lu =>
    rw [solve_lu]
    cases hf : factorize a with
    | ok factors =>
      rw [ok_bind,Factors.solve_misfit hmisfit]
      rfl
    | error e =>
      obtain ⟨stage,pivot,rfl⟩ := factorize_error positive hf
      exact absurd ⟨rfl,⟨stage,pivot,hf⟩,height⟩ h

theorem undiagnosable_iff {method : Method} {s : System} (height : s.p ≠ s.m) :
    Undiagnosable method s ↔ ∃ stage pivot, solve method s = .error (.singular stage pivot) := by
  obtain ⟨misfit,hmisfit⟩ := exists_misfit (n := s.n) height
  constructor
  · rintro ⟨rfl,⟨stage,pivot,hf⟩,-⟩
    rw [solve_lu,hf]
    exact ⟨stage,pivot,rfl⟩
  · rintro ⟨stage,pivot,hsolve⟩
    have hfactorizes : method.eliminates ≠ true := fun h => by
      rw [solve_eliminates h hmisfit] at hsolve
      cases hsolve
    cases method with
    | gauss | both => exact absurd rfl hfactorizes
    | lu =>
      refine ⟨rfl,?_,height⟩
      rw [solve_lu] at hsolve
      cases hf : factorize s.matrix with
      | error e =>
        rw [hf,error_bind,Except.error.injEq] at hsolve
        exact ⟨stage,pivot,congrArg Except.error hsolve⟩
      | ok factors =>
        -- the factors are square, so their system refuses the height as well
        obtain ⟨misfit,hmisfit⟩ := exists_misfit (m := s.n) (n := s.n) (p := s.p) (by
          rw [← square_of_factorize hf]
          exact height)
        rw [hf,ok_bind,Factors.solve_misfit hmisfit] at hsolve
        simp at hsolve

theorem diagnose_eq_error {m n p : Nat} {a : Mat Float m n} {b : Vector Float p}
    {mismatch : HeightMismatch} : diagnose a b = .error mismatch ↔ p ≠ m ∧ mismatch = ⟨m,p⟩ := by
  by_cases h : p = m
  · simp [diagnose,h]
  · simp [diagnose,h,eq_comm]

end Linear

namespace Task
open Linear

theorem solved_eq_error {method : Method} {s : System} {mismatch : HeightMismatch} :
    solved method s = .error mismatch ↔ Undiagnosable method s ∧ mismatch = ⟨s.m,s.p⟩ := by
  have hdiagnosed : solved method s = .error mismatch ↔
      (∃ stage pivot, solve method s = .error (.singular stage pivot)) ∧
        diagnose s.matrix s.rhs = .error mismatch := by
    unfold solved
    cases solve method s with
    | ok solution => simp
    | error e =>
      cases e with
      | dimension misfit => simp
      | singular stage pivot => cases diagnose s.matrix s.rhs <;> simp
  rw [hdiagnosed,diagnose_eq_error]
  constructor
  · rintro ⟨hsingular,height,rfl⟩
    exact ⟨(undiagnosable_iff height).mpr hsingular,rfl⟩
  · rintro ⟨h,rfl⟩
    exact ⟨(undiagnosable_iff h.height).mp h,h.height,rfl⟩

theorem run_eq_error {t : Task} {mismatch : HeightMismatch} :
    t.run = .error mismatch ↔
      ∃ method s, t = .linear method s ∧ Undiagnosable method s ∧ mismatch = ⟨s.m,s.p⟩ := by
  cases t with
  | linear method s => simp [run,solved_eq_error]
  | evaluate | bisection | scan => simp [run]

def IsAnswered (t : Task) : Prop := ∃ result, t.run = .ok result

theorem isAnswered_iff {t : Task} :
    t.IsAnswered ↔ ∀ method s, t = .linear method s → ¬Undiagnosable method s := by
  constructor
  · rintro ⟨result,hresult⟩ method s rfl h
    have herror := run_eq_error.mpr ⟨method,s,rfl,h,rfl⟩
    rw [hresult] at herror
    cases herror
  · intro h
    cases hrun : t.run with
    | ok result => exact ⟨result,hrun⟩
    | error mismatch =>
      obtain ⟨method,s,rfl,hs,-⟩ := run_eq_error.mp hrun
      exact absurd hs (h method s rfl)

theorem runAll_cons (t : Task) (tasks : List Task) : runAll (t::tasks) = do
    let result ← t.run
    let results ← runAll tasks
    return (t,result)::results := by
  rw [runAll,List.mapM_cons]
  cases t.run <;> rfl

theorem runAll_eq_ok {tasks : List Task} {results : List (Task × Result)} :
    runAll tasks = .ok results ↔
      results.map Prod.fst = tasks ∧ ∀ r ∈ results, r.1.run = .ok r.2 := by
  induction tasks generalizing results with
  | nil =>
    rw [List.map_eq_nil_iff]
    constructor
    · rintro ⟨⟩
      simp
    · rintro ⟨rfl,-⟩
      rfl
  | cons t tasks ih =>
    simp only [runAll_cons,bind_eq_ok,ih,List.map_eq_cons_iff]
    constructor
    · rintro ⟨result,hresult,results',⟨hmap,hrun⟩,⟨⟩⟩
      exact ⟨⟨_,_,rfl,rfl,hmap⟩,List.forall_mem_cons.mpr ⟨hresult,hrun⟩⟩
    · rintro ⟨⟨r,results',rfl,rfl,hmap⟩,hrun⟩
      obtain ⟨hresult,hrun⟩ := List.forall_mem_cons.mp hrun
      exact ⟨_,hresult,results',⟨hmap,hrun⟩,rfl⟩

theorem exists_runAll_iff {tasks : List Task} :
    (∃ results, runAll tasks = .ok results ∧ results.map Prod.fst = tasks ∧
      ∀ r ∈ results, r.1.run = .ok r.2) ↔ ∀ t ∈ tasks, t.IsAnswered := by
  constructor
  · rintro ⟨results,-,rfl,hresults⟩ t ht
    obtain ⟨r,hr,rfl⟩ := List.mem_map.mp ht
    exact ⟨r.2,hresults r hr⟩
  · intro h
    choose result hresult using h
    refine ⟨tasks.attach.map fun t => (t.1,result t.1 t.2),?_⟩
    rw [runAll_eq_ok,and_self,List.map_map]
    refine ⟨List.attach_map_subtype_val tasks,fun r hr => ?_⟩
    obtain ⟨t,-,rfl⟩ := List.mem_map.mp hr
    exact hresult t.1 t.2

theorem runDocument_eq_ok {text : String} {tasks : List Task} {results : List (Task × Result)}
    (h : parse text = .ok tasks) :
    runDocument text = .ok results ↔ runAll tasks = .ok results := by
  rw [runDocument,h,runParsed]
  cases runAll tasks <;> simp

/-- Every task of a document has its own result, unless the document holds a system that cannot be
diagnosed. Such a system is to be solved by factorization alone, has a singular matrix, and a
right-hand side of another height. All other systems have an answer, and a square one with a
right-hand side of another height is refused for that, whatever the method. -/
theorem runDocument_answers (text : String) :
    (∀ method s, (linear method s).IsAnswered ↔ ¬Undiagnosable method s) ∧
    (∀ method s, s.m = s.n → 0 < s.n → s.p ≠ s.n → ¬Undiagnosable method s →
      (linear method s).run = .ok (.error (.linear (.dimension (.rightSide s.p s.n))))) ∧
    ∀ tasks, parse text = .ok tasks →
      ((∃ results, runDocument text = .ok results ∧ results.map Prod.fst = tasks ∧
        ∀ r ∈ results, r.1.run = .ok r.2) ↔
      ∀ method s, linear method s ∈ tasks → ¬Undiagnosable method s) := by
  refine ⟨fun method s => ?_,fun method s square positive height h => ?_,fun tasks htasks => ?_⟩
  · rw [isAnswered_iff]
    exact ⟨fun h => h method s rfl,fun h _ _ heq => by cases heq; exact h⟩
  · simp only [run,solved,solve_of_height square positive height h]
  · have hanswered : (∀ method s, linear method s ∈ tasks → ¬Undiagnosable method s) ↔
        ∀ t ∈ tasks, t.IsAnswered := by
      constructor
      · intro h t ht
        exact isAnswered_iff.mpr fun method s heq => h method s (heq ▸ ht)
      · intro h method s hs
        exact isAnswered_iff.mp (h _ hs) method s rfl
    rw [hanswered,← exists_runAll_iff]
    simp only [runDocument_eq_ok htasks]

/-- A singular matrix of order two with three entries on the right keeps the task after it from
being answered. -/
theorem runDocument_overlooked :
    runDocument ("linear\nmethod: lu\nmatrix: 1; 2 | 2; 4\nrhs: 1; 2; 3\n" ++
      "evaluate\nfunction: x\npoints: 1") = .error (.undiagnosable ⟨2,3⟩) := by
  have h : (match runDocument ("linear\nmethod: lu\nmatrix: 1; 2 | 2; 4\nrhs: 1; 2; 3\n" ++
      "evaluate\nfunction: x\npoints: 1") with
    | .error obstacle => decide (obstacle = .undiagnosable ⟨2,3⟩)
    | .ok _ => false) = true := by decide +kernel
  revert h
  cases runDocument ("linear\nmethod: lu\nmatrix: 1; 2 | 2; 4\nrhs: 1; 2; 3\n" ++
    "evaluate\nfunction: x\npoints: 1") with
  | error obstacle => simp
  | ok results => simp

end Task
end NumericWorkbench
