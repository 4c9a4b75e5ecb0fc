import NumericWorkbench.Proofs.Document.Joining
import NumericWorkbench.Proofs.Task.Answers
/-! Documents one after the other are run one after the other. -/
namespace NumericWorkbench
namespace Task
open Document

theorem ofSections_append (ss ss' : List Section) : ofSections (ss ++ ss') = do
    return (← ofSections ss) ++ (← ofSections ss') :=
  List.mapM_append

theorem runAll_append (tasks tasks' : List Task) : runAll (tasks ++ tasks') = do
    return (← runAll tasks) ++ (← runAll tasks') :=
  List.mapM_append

theorem runDocument_of_sections {text : String} {ss : List Section}
    (h : Document.parse text = .ok ss) : runDocument text = runParsed (ofSections ss) := by
  rw [runDocument,parse,h]
  rfl

/-- A section describes a task, and this is its result. -/
def Answers (s : Section) (r : Task × Result) : Prop :=
  ofSection s = .ok r.1 ∧ r.1.run = .ok r.2

theorem forall₂_answers {ss : List Section} {results : List (Task × Result)} :
    List.Forall₂ Answers ss results ↔
      List.Forall₂ (fun s t => ofSection s = .ok t) ss (results.map Prod.fst) ∧
        ∀ r ∈ results, r.1.run = .ok r.2 := by
  have hflip (R : Section → Task × Result → Prop) :
      List.Forall₂ R ss results ↔ List.Forall₂ (fun r s => R s r) results ss :=
    ⟨List.Forall₂.flip,List.Forall₂.flip⟩
  rw [List.forall₂_map_right_iff,hflip,hflip,and_comm,← List.forall₂_and_left]
  simp only [Answers,and_comm]

theorem runDocument_eq_ok_iff {text : String} {ss : List Section} {results : List (Task × Result)}
    (h : Document.parse text = .ok ss) :
    runDocument text = .ok results ↔ List.Forall₂ Answers ss results := by
  have hrun : runDocument text = .ok results ↔
      ∃ tasks, ofSections ss = .ok tasks ∧ runAll tasks = .ok results := by
    rw [runDocument_of_sections h]
    cases ofSections ss with
    | error e => simp [runParsed]
    | ok tasks => cases hall : runAll tasks <;> simp [runParsed,hall]
  rw [hrun,forall₂_answers]
  simp only [runAll_eq_ok,ofSections,mapM_eq_ok]
  constructor
  · rintro ⟨tasks,hsections,rfl,hresults⟩
    exact ⟨hsections,hresults⟩
  · rintro ⟨hsections,hresults⟩
    exact ⟨_,hsections,rfl,hresults⟩

theorem runDocument_refused_iff {text : String} {ss : List Section} {e : Document.Error}
    (h : Document.parse text = .ok ss) :
    runDocument text = .error (.refused e) ↔ ∃ front s back, ss = front ++ s::back ∧
      (∀ u ∈ front, ∃ t, ofSection u = .ok t) ∧ ofSection s = .error e := by
  have hrefused : runDocument text = .error (.refused e) ↔ ofSections ss = .error e := by
    rw [runDocument_of_sections h]
    cases ofSections ss with
    | error e' => simp [runParsed]
    | ok tasks => cases hall : runAll tasks <;> simp [runParsed,hall]
  rw [hrefused,ofSections,mapM_eq_error]

theorem runParsed_append (ss ss' : List Section) :
    runParsed (ofSections (ss ++ ss')) =
      match runParsed (ofSections ss),runParsed (ofSections ss') with
      | .error (.refused e),_ => .error (.refused e)
      | _,.error (.refused e) => .error (.refused e)
      | .error (.undiagnosable mismatch),_ => .error (.undiagnosable mismatch)
      | .ok _,.error (.undiagnosable mismatch) => .error (.undiagnosable mismatch)
      | .ok results,.ok results' => .ok (results ++ results') := by
  rw [ofSections_append]
  cases ofSections ss with
  | error e => rfl
  | ok tasks =>
    cases ofSections ss' with
    | error e => cases hall : runAll tasks <;> simp [runParsed,hall]
    | ok tasks' =>
      have happend := runAll_append tasks tasks'
      cases hall : runAll tasks <;> cases hall' : runAll tasks' <;>
        simp_all [runParsed,pure,Except.pure]

/-- Two documents one after the other have the sections of the first and then those of the second, and
so their results. Whatever keeps the first one from being answered keeps both from it, only that all
sections are read before any task is run. Each section has its own result, and the first one that
describes no task is what a document is refused for. -/
theorem runDocument_join {d₁ d₂ : String} {ss₁ ss₂ : List Section}
    (h₁ : Document.parse d₁ = .ok ss₁) (h₂ : Document.parse d₂ = .ok ss₂) :
    Document.parse (d₁ ++ "\n" ++ d₂) = .ok (ss₁ ++ ss₂) ∧
    (∀ results₁ results₂, runDocument d₁ = .ok results₁ → runDocument d₂ = .ok results₂ →
      runDocument (d₁ ++ "\n" ++ d₂) = .ok (results₁ ++ results₂)) ∧
    (∀ e, runDocument d₁ = .error (.refused e) →
      runDocument (d₁ ++ "\n" ++ d₂) = .error (.refused e)) ∧
    (∀ results₁ obstacle, runDocument d₁ = .ok results₁ → runDocument d₂ = .error obstacle →
      runDocument (d₁ ++ "\n" ++ d₂) = .error obstacle) ∧
    (∀ mismatch, runDocument d₁ = .error (.undiagnosable mismatch) →
      runDocument (d₁ ++ "\n" ++ d₂) =
        match runDocument d₂ with
        | .error (.refused e) => .error (.refused e)
        | _ => .error (.undiagnosable mismatch)) ∧
    (∀ results, runDocument (d₁ ++ "\n" ++ d₂) = .ok results ↔
      List.Forall₂ Answers (ss₁ ++ ss₂) results) ∧
    ∀ e, runDocument (d₁ ++ "\n" ++ d₂) = .error (.refused e) ↔
      ∃ front s back, ss₁ ++ ss₂ = front ++ s::back ∧ (∀ u ∈ front, ∃ t, ofSection u = .ok t) ∧
        ofSection s = .error e := by
  have hparse := parse_join h₁ h₂
  refine ⟨hparse,?_,?_,?_,?_,fun _ => runDocument_eq_ok_iff hparse,
    fun _ => runDocument_refused_iff hparse⟩
  all_goals rw [runDocument_of_sections hparse,runParsed_append,← runDocument_of_sections h₁,
    ← runDocument_of_sections h₂]
  · intro results₁ results₂ hrun₁ hrun₂
    rw [hrun₁,hrun₂]
  · intro e hrun₁
    rw [hrun₁]
  · intro results₁ obstacle hrun₁ hrun₂
    rw [hrun₁,hrun₂]
    cases obstacle <;> rfl
  · intro mismatch hrun₁
    rw [hrun₁]
    rcases runDocument d₂ with (e | mismatch') | results₂ <;> rfl

/-- The first document ends with a comment and a carriage return. It is joined with one that has an
empty line at its start and with one that lacks a key. -/
theorem runDocument_join_comment :
    (Document.parse "evaluate\nfunction: x\npoints: 1\n# end\r" =
        .ok [⟨"evaluate",[⟨"function","x"⟩,⟨"points","1"⟩]⟩] ∧
      Document.parse "\nevaluate\nfunction: 2x\npoints: 3" =
        .ok [⟨"evaluate",[⟨"function","2x"⟩,⟨"points","3"⟩]⟩] ∧
      Document.parse "evaluate\npoints: 3" = .ok [⟨"evaluate",[⟨"points","3"⟩]⟩]) ∧
    (∃ results₁ results₂, runDocument "evaluate\nfunction: x\npoints: 1\n# end\r" = .ok results₁ ∧
      runDocument "\nevaluate\nfunction: 2x\npoints: 3" = .ok results₂ ∧
      runDocument "evaluate\nfunction: x\npoints: 1\n# end\r\n\nevaluate\nfunction: 2x\npoints: 3" =
        .ok (results₁ ++ results₂)) ∧
    runDocument "evaluate\nfunction: x\npoints: 1\n# end\r\nevaluate\npoints: 3" =
      .error (.refused (.missingKey "evaluate" "function")) := by
  have h₁ : Document.parse "evaluate\nfunction: x\npoints: 1\n# end\r" =
      .ok [⟨"evaluate",[⟨"function","x"⟩,⟨"points","1"⟩]⟩] := by decide +kernel
  have h₂ : Document.parse "\nevaluate\nfunction: 2x\npoints: 3" =
      .ok [⟨"evaluate",[⟨"function","2x"⟩,⟨"points","3"⟩]⟩] := by decide +kernel
  have h₃ : Document.parse "evaluate\npoints: 3" = .ok [⟨"evaluate",[⟨"points","3"⟩]⟩] := by
    decide +kernel
  obtain ⟨results₁,hrun₁⟩ : ∃ results, runDocument _ = .ok results :=
    exists_eq_ok (m := runDocument "evaluate\nfunction: x\npoints: 1\n# end\r") (by decide +kernel)
  obtain ⟨results₂,hrun₂⟩ : ∃ results, runDocument _ = .ok results :=
    exists_eq_ok (m := runDocument "\nevaluate\nfunction: 2x\npoints: 3") (by decide +kernel)
  have hrun₃ : runDocument "evaluate\npoints: 3" =
      .error (.refused (.missingKey "evaluate" "function")) :=
    (runDocument_refused_iff h₃).mpr ⟨[],_,[],rfl,by simp,by rfl⟩
  exact ⟨⟨h₁,h₂,h₃⟩,⟨results₁,results₂,hrun₁,hrun₂,(runDocument_join h₁ h₂).2.1 _ _ hrun₁ hrun₂⟩,
    (runDocument_join h₁ h₃).2.2.2.1 _ _ hrun₁ hrun₃⟩

end Task
end NumericWorkbench
