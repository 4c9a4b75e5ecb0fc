import NumericWorkbench.Arithmetic
/-! Matrices whose entries are stored, so that an entry is computed once. -/
namespace NumericWorkbench

/-- A matrix with `m` rows and `n` columns, as a vector of its rows. -/
abbrev Mat (α : Type) (m n : Nat) := Vector (Vector α n) m

namespace Vec
variable {α : Type} {n : Nat}

def replace (x : Vector α n) (i : Fin n) (v : α) : Vector α n :=
  Vector.ofFn fun j => if j = i then v else x.get j

def exchange (x : Vector α n) (i j : Fin n) : Vector α n :=
  Vector.ofFn fun k => if k = i then x.get j else if k = j then x.get i else x.get k

end Vec

namespace Mat
variable {α : Type} {m n k : Nat}

def entry (a : Mat α m n) (i : Fin m) (j : Fin n) : α := (a.get i).get j

def ofFn (f : Fin m → Fin n → α) : Mat α m n := Vector.ofFn fun i => Vector.ofFn (f i)

@[simp] theorem entry_ofFn (f : Fin m → Fin n → α) (i : Fin m) (j : Fin n) :
    (ofFn f).entry i j = f i j := by
  change (ofFn f)[i][j] = f i j
  simp [ofFn]

/-- The place of entry `(i,j)` in the entries row by row. -/
def place (i : Fin m) (j : Fin n) : Fin (m*n) :=
  ⟨i.val*n+j.val,by
    calc i.val*n+j.val < i.val*n+n := by omega
      _ = (i.val+1)*n := by rw [Nat.add_mul,Nat.one_mul]
      _ ≤ m*n := Nat.mul_le_mul_right n i.isLt⟩

/-- The matrix with the given entries row by row, if their number is right. -/
def ofEntries? (m n : Nat) (entries : Array α) : Option (Mat α m n) :=
  if h : entries.size = m*n then some (ofFn fun i j => entries[(place i j).cast h.symm])
  else none

/-- The matrix with the given rows, which all have `n` entries. -/
def ofRows (rows : List (List α)) (n : Nat) (h : ∀ row ∈ rows, row.length = n) :
    Mat α rows.length n :=
  ofFn fun i j => (rows.get i).get (j.cast (h _ (rows.get_mem i)).symm)

def entries (a : Mat α m n) : List α := a.toList.flatMap Vector.toList

def transpose (a : Mat α m n) : Mat α n m := ofFn fun i j => a.entry j i

/-- `[A b]` -/
def augment (a : Mat α m n) (b : Vector α m) : Mat α m (n+1) :=
  Vector.ofFn fun i => (a.get i).push (b.get i)

variable [Arithmetic α]

/-- The products of a row and a vector are added up from the first one on. -/
def mulVec (a : Mat α m n) (x : Vector α n) : Vector α m :=
  Vector.ofFn fun i => Arithmetic.total ((List.finRange n).map fun j => a.entry i j*x.get j)

def mul (a : Mat α m k) (b : Mat α k n) : Mat α m n :=
  ofFn fun i j => Arithmetic.total ((List.finRange k).map fun t => a.entry i t*b.entry t j)

/-- The matrix with a one in row `i` at column `order[i]` and zeros elsewhere. -/
def permutation (order : Vector (Fin n) m) : Mat α m n :=
  ofFn fun i j => if order.get i = j then 1.0 else 0.0

def diagonal (a : Mat α n n) : List α := (List.finRange n).map fun i => a.entry i i

end Mat
end NumericWorkbench
