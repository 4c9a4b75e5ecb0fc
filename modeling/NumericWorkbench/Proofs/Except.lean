import Mathlib.Data.List.Forall2
/-! How a computation that may fail comes to its result. -/
namespace NumericWorkbench
variable {ε α β : Type}

@[simp] theorem ok_bind (a : α) (f : α → Except ε β) : (Except.ok a >>= f) = f a := rfl

@[simp] theorem error_bind (x : ε) (f : α → Except ε β) :
    ((Except.error x : Except ε α) >>= f) = .error x := rfl

theorem bind_eq_ok {m : Except ε α} {f : α → Except ε β} {b : β} :
    (m >>= f) = .ok b ↔ ∃ a, m = .ok a ∧ f a = .ok b := by
  cases m <;> simp

theorem bind_eq_error {m : Except ε α} {f : α → Except ε β} {x : ε} :
    (m >>= f) = .error x ↔ m = .error x ∨ ∃ a, m = .ok a ∧ f a = .error x := by
  cases m <;> simp

theorem exists_eq_ok {m : Except ε α} (h : m.isOk) : ∃ a, m = .ok a := by
  cases m with
  | error x => cases h
  | ok a => exact ⟨a,rfl⟩

theorem mapM_eq_ok {f : α → Except ε β} {xs : List α} {ys : List β} :
    xs.mapM f = .ok ys ↔ List.Forall₂ (fun x y => f x = .ok y) xs ys := by
  induction xs generalizing ys with
  | nil =>
    rw [List.mapM_nil,List.forall₂_nil_left_iff]
    exact ⟨fun h => (Except.ok.inj h).symm,fun h => h ▸ rfl⟩
  | cons x xs ih =>
    rw [List.mapM_cons,bind_eq_ok,List.forall₂_cons_left_iff]
    simp only [bind_eq_ok,ih]
    constructor
    · rintro ⟨y,hy,ys',hys,heq⟩
      cases heq
      exact ⟨y,ys',hy,hys,rfl⟩
    · rintro ⟨y,ys',hy,hys,rfl⟩
      exact ⟨y,hy,ys',hys,rfl⟩

/-- The first entry that fails decides. -/
theorem mapM_eq_error {f : α → Except ε β} {xs : List α} {e : ε} :
    xs.mapM f = .error e ↔ ∃ front x back, xs = front ++ x::back ∧
      (∀ u ∈ front, ∃ y, f u = .ok y) ∧ f x = .error e := by
  induction xs with
  | nil => simp [pure,Except.pure]
  | cons x xs ih =>
    simp only [List.mapM_cons,bind_eq_error,ih,pure,Except.pure,reduceCtorEq,and_false,exists_false,
      or_false]
    constructor
    · rintro (hx | ⟨y,hy,front,z,back,rfl,hfront,hz⟩)
      · exact ⟨[],x,xs,rfl,by simp,hx⟩
      · exact ⟨x::front,z,back,rfl,List.forall_mem_cons.mpr ⟨⟨y,hy⟩,hfront⟩,hz⟩
    · rintro ⟨front,z,back,heq,hfront,hz⟩
      cases front with
      | nil =>
        cases heq
        exact .inl hz
      | cons u front =>
        cases heq
        obtain ⟨⟨y,hy⟩,hfront⟩ := List.forall_mem_cons.mp hfront
        exact .inr ⟨y,hy,front,z,back,rfl,hfront,hz⟩

theorem mapM_eq_some {f : α → Option β} {xs : List α} {ys : List β} :
    xs.mapM f = some ys ↔ List.Forall₂ (fun x y => f x = some y) xs ys := by
  induction xs generalizing ys with
  | nil =>
    rw [List.mapM_nil,List.forall₂_nil_left_iff]
    exact ⟨fun h => (Option.some.inj h).symm,fun h => h ▸ rfl⟩
  | cons x xs ih =>
    rw [List.mapM_cons,List.forall₂_cons_left_iff]
    simp only [Option.bind_eq_bind,Option.bind_eq_some_iff,ih]
    constructor
    · rintro ⟨y,hy,ys',hys,heq⟩
      cases heq
      exact ⟨y,ys',hy,hys,rfl⟩
    · rintro ⟨y,ys',hy,hys,rfl⟩
      exact ⟨y,hy,ys',hys,rfl⟩

theorem mapM_eq_none {f : α → Option β} {xs : List α} :
    xs.mapM f = none ↔ ∃ x ∈ xs, f x = none := by
  induction xs with
  | nil => simp
  | cons x xs ih =>
    rw [List.mapM_cons,List.exists_mem_cons_iff,← ih]
    cases f x <;> cases xs.mapM f <;> simp

theorem exists_getElem? {f : α → Option β} {xs : List α} {ys : List β} (h : xs.mapM f = some ys)
    (i : Fin ys.length) : ∃ x, xs[i.val]? = some x ∧ f x = some (ys.get i) := by
  have hread := mapM_eq_some.mp h
  have hi : i.val < xs.length := by
    rw [hread.length_eq]
    exact i.isLt
  exact ⟨xs[i.val],List.getElem?_eq_getElem hi,hread.get hi i.isLt⟩

theorem exists_of_mem_left {R : α → β → Prop} {xs : List α} {ys : List β}
    (h : List.Forall₂ R xs ys) : ∀ x ∈ xs, ∃ y ∈ ys, R x y := by
  induction h with
  | nil => simp
  | cons hxy _ ih =>
    refine List.forall_mem_cons.mpr ⟨⟨_,by simp,hxy⟩,fun x hx => ?_⟩
    obtain ⟨y,hy,hR⟩ := ih x hx
    exact ⟨y,by simp [hy],hR⟩

theorem exists_of_mem_right {R : α → β → Prop} {xs : List α} {ys : List β}
    (h : List.Forall₂ R xs ys) : ∀ y ∈ ys, ∃ x ∈ xs, R x y :=
  exists_of_mem_left (List.Forall₂.flip (R := fun y x => R x y) h)

end NumericWorkbench
