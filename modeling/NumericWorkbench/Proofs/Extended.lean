import NumericWorkbench.Proofs.Exact
/-! Exact arithmetic in which some results are missing: the numbers of an ordered field, two
infinities and an undefined value. Finite numbers are not rounded, and what is no finite number is
compared and passed on as in floating-point arithmetic. There is one zero, without a sign. -/
namespace NumericWorkbench

inductive Extended (K : Type) where
  | real (x : K)
  | infinite (negative : Bool)
  | undefined
deriving DecidableEq

namespace Extended
open Arithmetic
variable {K : Type} [LinearOrder K]

def less : Extended K → Extended K → Bool
  | real x,real y => x < y
  | real _,infinite s => !s
  | infinite s,real _ => s
  | infinite s,infinite t => s && !t
  | undefined,_ | _,undefined => false

def same : Extended K → Extended K → Bool
  | real x,real y => x = y
  | infinite s,infinite t => s = t
  | _,_ => false

-- an undefined value is not the same as itself, so this is not the equality of terms
instance : BEq (Extended K) := ⟨same⟩

@[simp] theorem real_beq (x y : K) : (real x == real y) = decide (x = y) := rfl

variable [Field K]

def neg : Extended K → Extended K
  | real x => real (-x)
  | infinite s => infinite (!s)
  | undefined => undefined

def add : Extended K → Extended K → Extended K
  | real x,real y => real (x+y)
  | real _,infinite s | infinite s,real _ => infinite s
  | infinite s,infinite t => if s = t then infinite s else undefined
  | undefined,_ | _,undefined => undefined

def mul : Extended K → Extended K → Extended K
  | real x,real y => real (x*y)
  | real x,infinite s | infinite s,real x =>
    if x = 0 then undefined else infinite (s ^^ decide (x < 0))
  | infinite s,infinite t => infinite (s ^^ t)
  | undefined,_ | _,undefined => undefined

def div : Extended K → Extended K → Extended K
  | real x,real y =>
    if y ≠ 0 then real (x/y) else if x ≠ 0 then infinite (decide (x < 0)) else undefined
  | real _,infinite _ => real 0
  | infinite s,real y => infinite (s ^^ decide (y < 0))
  | infinite _,infinite _ => undefined
  | undefined,_ | _,undefined => undefined

def magnitude : Extended K → Extended K
  | real x => real |x|
  | infinite _ => infinite false
  | undefined => undefined

instance [FloorRing K] : Arithmetic (Extended K) where
  add := add
  sub x y := add x (neg y)
  mul := mul
  div := div
  neg := neg
  lt x y := less x y = true
  le x y := (less x y || same x y) = true
  ofScientific m s e := real (OfScientific.ofScientific m s e)
  decLt x y := inferInstanceAs (Decidable (less x y = true))
  decLe x y := inferInstanceAs (Decidable ((less x y || same x y) = true))
  magnitude := magnitude
  ofNat n := real n
  isFinite
    | real _ => true
    | _ => false
  isNaN
    | undefined => true
    | _ => false
  toCount
    | real x => Arithmetic.toCount x
    | infinite s => if s then 0 else 2^64-1
    | undefined => 0
  precedes x y := less x y || same x y || (y matches undefined)

variable [FloorRing K] (x y : K)

@[simp] theorem real_add : (real x+real y : Extended K) = real (x+y) := rfl

@[simp] theorem real_sub : (real x-real y : Extended K) = real (x-y) :=
  congrArg real (sub_eq_add_neg x y).symm

@[simp] theorem real_mul : (real x*real y : Extended K) = real (x*y) := rfl

theorem real_div {y : K} (hy : y ≠ 0) : (real x/real y : Extended K) = real (x/y) := if_pos hy

@[simp] theorem real_lt : (real x : Extended K) < real y ↔ x < y := decide_eq_true_iff

@[simp] theorem real_le : (real x : Extended K) ≤ real y ↔ x ≤ y := by
  change (decide (x < y) || decide (x = y)) = true ↔ x ≤ y
  rw [Bool.or_eq_true,decide_eq_true_iff,decide_eq_true_iff,le_iff_lt_or_eq]

theorem precedes_of_lt {v w : Extended K} (h : v < w) : precedes v w = true := by
  change (less v w || same v w || _) = true
  rw [show less v w = true from h]
  rfl

@[simp] theorem isFinite_real : isFinite (real x) = true := rfl

@[simp] theorem ofNat_real (n : Nat) : (Arithmetic.ofNat n : Extended K) = real (n : K) := rfl

theorem toCount_real : Arithmetic.toCount (real x) = min ⌊x⌋.toNat (2^64-1) := rfl

theorem real_literal (m : Nat) (s : Bool) (e : Nat) :
    (OfScientific.ofScientific m s e : Extended K) = real (OfScientific.ofScientific m s e) := rfl

theorem zero_literal : (0.0 : Extended K) = real 0 := congrArg real Arithmetic.zero_literal

theorem isFinite_iff {v : Extended K} : isFinite v = true ↔ ∃ x, v = real x := by
  cases v with
  | real x => simp
  | infinite s => exact ⟨nofun,nofun⟩
  | undefined => exact ⟨nofun,nofun⟩

/-- A product of finite values is finite, and so it is comparable with zero. -/
theorem nonneg_mul_iff {v w : Extended K} (hv : isFinite v = true) (hw : isFinite w = true) :
    0.0 ≤ v*w ↔ ¬v*w < 0.0 := by
  obtain ⟨x,rfl⟩ := isFinite_iff.mp hv
  obtain ⟨y,rfl⟩ := isFinite_iff.mp hw
  rw [real_mul,zero_literal,real_le,real_lt,not_lt]

end Extended
end NumericWorkbench
