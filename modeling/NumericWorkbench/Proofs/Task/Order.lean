import NumericWorkbench.Proofs.Except
import NumericWorkbench.Task.Task
import Mathlib.Data.List.Nodup
/-! The order of the entries of a section. Once every key is known to appear only once, it makes no
difference which of two entries comes first. -/
namespace NumericWorkbench
namespace Document

/-- Every key of a section is allowed, and none is there twice. -/
structure Section.KeysFit (s : Section) (allowed : List String) : Prop where
  allowed : ∀ e ∈ s.entries, e.key ∈ allowed
  once : (s.entries.map Entry.key).Nodup

/-- What can be said against the keys of a section. -/
inductive Section.KeyError (s : Section) (allowed : List String) : Error → Prop
  | unknown {key : String} : key ∈ s.entries.map Entry.key → key ∉ allowed →
      KeyError s allowed (.unknownKey s.title key)
  | duplicate {key : String} : 2 ≤ (s.entries.map Entry.key).count key → key ∈ allowed →
      KeyError s allowed (.duplicateKey s.title key)

section Keys
variable {title : String} {allowed seen : List String} {es es' : List Entry} {s s' : Section} {x : Error}

theorem checkEntries_eq_ok : Section.checkEntries title allowed seen es = .ok () ↔
    (∀ e ∈ es, e.key ∈ allowed ∧ e.key ∉ seen) ∧ (es.map Entry.key).Nodup := by
  induction es generalizing seen with
  | nil => simp [Section.checkEntries]
  | cons e es ih =>
    by_cases hallowed : e.key ∈ allowed <;> by_cases hseen : e.key ∈ seen <;>
      simp [Section.checkEntries,hallowed,hseen,ih]
    grind

theorem checkEntries_eq_error (h : Section.checkEntries title allowed seen es = .error x) :
    (∃ key ∈ es.map Entry.key, key ∉ allowed ∧ x = .unknownKey title key) ∨
    ∃ key ∈ allowed, 2 ≤ (seen ++ es.map Entry.key).count key ∧ x = .duplicateKey title key := by
  induction es generalizing seen with
  | nil => simp [Section.checkEntries] at h
  | cons e es ih =>
    by_cases hallowed : e.key ∈ allowed
    · by_cases hseen : e.key ∈ seen
      · simp only [Section.checkEntries,hallowed,hseen,not_true,if_false,if_true,Except.error.injEq] at h
        have hcount := List.one_le_count_iff.mpr hseen
        refine .inr ⟨e.key,hallowed,?_,h.symm⟩
        simp only [List.map_cons,List.count_append,List.count_cons_self]
        omega
      · simp only [Section.checkEntries,hallowed,hseen,not_true,if_false] at h
        rcases ih h with ⟨key,hkey,hnot,rfl⟩ | ⟨key,hkey,htwo,rfl⟩
        · exact .inl ⟨key,by simp [hkey],hnot,rfl⟩
        · refine .inr ⟨key,hkey,?_,rfl⟩
          simp only [List.map_cons,List.count_append,List.count_cons] at htwo ⊢
          omega
    · simp only [Section.checkEntries,hallowed,not_false_iff,if_true,Except.error.injEq] at h
      exact .inl ⟨e.key,by simp,hallowed,h.symm⟩

namespace Section

theorem checkKeys_eq_ok : s.checkKeys allowed = .ok () ↔ s.KeysFit allowed := by
  rw [checkKeys,checkEntries_eq_ok]
  exact ⟨fun h => ⟨fun e he => (h.1 e he).1,h.2⟩,fun h => ⟨fun e he => ⟨h.1 e he,by simp⟩,h.2⟩⟩

theorem keyError_of_checkKeys (h : s.checkKeys allowed = .error x) : s.KeyError allowed x := by
  rcases checkEntries_eq_error h with ⟨key,hkey,hnot,rfl⟩ | ⟨key,hkey,htwo,rfl⟩
  · exact .unknown hkey hnot
  · exact .duplicate (by simpa using htwo) hkey

theorem exists_keyError (h : ¬s.KeysFit allowed) :
    ∃ x, s.checkKeys allowed = .error x ∧ s.KeyError allowed x := by
  cases hcheck : s.checkKeys allowed with
  | ok => exact absurd (checkKeys_eq_ok.mp hcheck) h
  | error x => exact ⟨x,rfl,keyError_of_checkKeys hcheck⟩

theorem keysFit_perm (h : s'.entries.Perm s.entries) :
    s'.KeysFit allowed ↔ s.KeysFit allowed := by
  constructor
  · rintro ⟨hallowed,honce⟩
    exact ⟨fun e he => hallowed e (h.mem_iff.mpr he),(h.map Entry.key).nodup_iff.mp honce⟩
  · rintro ⟨hallowed,honce⟩
    exact ⟨fun e he => hallowed e (h.mem_iff.mp he),(h.map Entry.key).nodup_iff.mpr honce⟩

end Section

theorem find?_key_perm (h : es'.Perm es) (honce : (es'.map Entry.key).Nodup) (key : String) :
    es'.find? (fun e => e.key = key) = es.find? fun e => e.key = key := by
  induction h with
  | nil => rfl
  | cons e _ ih => simp [List.find?_cons,ih (List.nodup_cons.mp honce).2]
  | swap a b es =>
    have hne : b.key ≠ a.key := by simp_all
    by_cases ha : a.key = key <;> by_cases hb : b.key = key <;> simp_all
  | trans h _ ih ih' => rw [ih honce,ih' ((h.map Entry.key).nodup_iff.mp honce)]

end Keys
end Document

namespace Task
open Document
variable {s s' : Section} {kind : Kind}

def valuesOf : Kind → Section → Except Error Task
  | .evaluate => evaluateOf
  | .bisection => bisectionOf
  | .scan => scanOf
  | .linear => linearOf

theorem ofSection_eq (h : Kind.ofName? s.title = some kind) :
    ofSection s = s.checkKeys kind.allowedKeys >>= fun _ => valuesOf kind s := by
  rw [ofSection,h]
  cases kind <;> rfl

/-- Of a section, no more than its title and the values of keys are ever asked for. -/
theorem valuesOf_congr (htitle : s'.title = s.title) (hget : ∀ key, s'.get? key = s.get? key)
    (kind : Kind) : valuesOf kind s' = valuesOf kind s := by
  have hrequire (key : String) : s'.require key = s.require key := by
    rw [Section.require,Section.require,hget,htitle]
  have hinvalid : s'.invalid = s.invalid := by
    funext key value expected
    rw [Section.invalid,Section.invalid,htitle]
  have hread {α : Type} (key : String) (p : List Char → Option α) (expected : String) :
      s'.read key p expected = s.read key p expected := by
    simp only [Section.read,hget,hinvalid]
  have hinterval : readInterval s' = readInterval s := by
    simp only [readInterval,Section.reals,hread,hinvalid,hget]
  cases kind with
  | evaluate => simp only [valuesOf,evaluateOf,Section.reals,hrequire,hread]
  | bisection =>
    simp only [valuesOf,bisectionOf,Section.real,Section.count,hrequire,hread,hinterval]
  | scan =>
    simp only [valuesOf,scanOf,Section.real,Section.reals,Section.count,hrequire,hread,hinterval]
  | linear =>
    have hmethod : readMethod s' = readMethod s := by simp only [readMethod,hget,hinvalid]
    have hsystem : systemOf s' = systemOf s := by
      funext rows rhs
      simp only [systemOf,hget,hinvalid]
    simp only [valuesOf,linearOf,Section.rows,Section.reals,hrequire,hread,hmethod,hsystem]

theorem ofSection_of_keyError {x : Error} (hkind : Kind.ofName? s.title = some kind)
    (h : s.checkKeys kind.allowedKeys = .error x) : ofSection s = .error x := by
  rw [ofSection_eq hkind,h,error_bind]

theorem ofSection_of_keysFit (hkind : Kind.ofName? s.title = some kind)
    (h : s.KeysFit kind.allowedKeys) : ofSection s = valuesOf kind s := by
  rw [ofSection_eq hkind,Section.checkKeys_eq_ok.mpr h,ok_bind]

theorem ofSection_of_unknown (h : Kind.ofName? s.title = none) :
    ofSection s = .error (.unknownSection s.title) := by
  rw [ofSection,h]
  rfl

theorem keysFit_of_ofSection {t : Task} (h : ofSection s = .ok t) :
    ∃ kind, Kind.ofName? s.title = some kind ∧ s.KeysFit kind.allowedKeys := by
  cases hkind : Kind.ofName? s.title with
  | none => simp [ofSection_of_unknown hkind] at h
  | some kind =>
    rw [ofSection_eq hkind] at h
    obtain ⟨⟨⟩,hcheck,-⟩ := bind_eq_ok.mp h
    exact ⟨kind,rfl,Section.checkKeys_eq_ok.mp hcheck⟩

/-- The order of the entries of a section does not matter. If its keys are allowed and appear once, then
in any order the same task is read, or the same error is found. If not, the section is refused for one
of its keys in any order, though it may be another key. A section is accepted only if its keys are
allowed and appear once. -/
theorem ofSection_perm (htitle : s'.title = s.title) (h : s'.entries.Perm s.entries) :
    (∀ kind, Kind.ofName? s.title = some kind →
      (s.checkKeys kind.allowedKeys = .ok () ↔ s.KeysFit kind.allowedKeys) ∧
      (s.KeysFit kind.allowedKeys → ofSection s' = ofSection s) ∧
      ∀ x, s.checkKeys kind.allowedKeys = .error x →
        s.KeyError kind.allowedKeys x ∧ ofSection s = .error x ∧
        ∃ y, s'.checkKeys kind.allowedKeys = .error y ∧ s'.KeyError kind.allowedKeys y ∧
          ofSection s' = .error y) ∧
    (Kind.ofName? s.title = none → ofSection s' = ofSection s) ∧
    ∀ t, ofSection s = .ok t →
      ∃ kind, Kind.ofName? s.title = some kind ∧ s.KeysFit kind.allowedKeys := by
  refine ⟨fun kind hkind => ⟨Section.checkKeys_eq_ok,fun hfit => ?_,fun x hx => ?_⟩,
    fun hunknown => ?_,fun t => keysFit_of_ofSection⟩
  · have hfit' := (Section.keysFit_perm h).mpr hfit
    rw [ofSection_of_keysFit hkind hfit,ofSection_of_keysFit (htitle ▸ hkind) hfit']
    refine valuesOf_congr htitle (fun key => ?_) kind
    rw [Section.get?,Section.get?,find?_key_perm h hfit'.once]
  · have hnot : ¬s'.KeysFit kind.allowedKeys := fun hfit' => by
      have hok := Section.checkKeys_eq_ok.mpr ((Section.keysFit_perm h).mp hfit')
      simp [hx] at hok
    obtain ⟨y,hy,hyerror⟩ := Section.exists_keyError hnot
    exact ⟨Section.keyError_of_checkKeys hx,ofSection_of_keyError hkind hx,y,hy,hyerror,
      ofSection_of_keyError (htitle ▸ hkind) hy⟩
  · rw [ofSection_of_unknown hunknown,ofSection_of_unknown (htitle ▸ hunknown),htitle]

/-- Of three errors in the values of a section, the same one is found in another order. Of two errors in
the keys of a section, another one is found. -/
theorem ofSection_perm_errors :
    (ofSection ⟨"bisection",[⟨"tolerance","x"⟩,⟨"interval","1"⟩]⟩ =
        ofSection ⟨"bisection",[⟨"interval","1"⟩,⟨"tolerance","x"⟩]⟩ ∧
      ofSection ⟨"bisection",[⟨"interval","1"⟩,⟨"tolerance","x"⟩]⟩ =
        .error (.missingKey "bisection" "function")) ∧
    ofSection ⟨"evaluate",[⟨"points","1"⟩,⟨"points","2"⟩,⟨"rhs","3"⟩]⟩ =
      .error (.duplicateKey "evaluate" "points") ∧
    ∃ y, ofSection ⟨"evaluate",[⟨"points","1"⟩,⟨"rhs","3"⟩,⟨"points","2"⟩]⟩ = .error y ∧
      y = .unknownKey "evaluate" "rhs" ∧
      Section.KeyError ⟨"evaluate",[⟨"points","1"⟩,⟨"rhs","3"⟩,⟨"points","2"⟩]⟩
        Kind.evaluate.allowedKeys y := by
  have hvalues := @ofSection_perm ⟨"bisection",[⟨"interval","1"⟩,⟨"tolerance","x"⟩]⟩
    ⟨"bisection",[⟨"tolerance","x"⟩,⟨"interval","1"⟩]⟩ rfl (by decide)
  have hkeys := @ofSection_perm ⟨"evaluate",[⟨"points","1"⟩,⟨"points","2"⟩,⟨"rhs","3"⟩]⟩
    ⟨"evaluate",[⟨"points","1"⟩,⟨"rhs","3"⟩,⟨"points","2"⟩]⟩ rfl (by decide)
  obtain ⟨-,hsame,-⟩ := hvalues.1 .bisection rfl
  obtain ⟨-,-,herror⟩ := hkeys.1 .evaluate rfl
  obtain ⟨-,hduplicate,y,hy,hkey,hunknown⟩ := herror (.duplicateKey "evaluate" "points") (by decide)
  refine ⟨⟨hsame ⟨by decide,by decide⟩,by rfl⟩,hduplicate,y,hunknown,?_,hkey⟩
  exact Except.error.inj (hy.symm.trans (by decide))

end Task
end NumericWorkbench
