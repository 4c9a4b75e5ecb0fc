import NumericWorkbench.Linear.Mat
/-! Singular values of a matrix by plane rotations of its columns. Each rotation makes two columns
orthogonal. When all of them are, their lengths are the singular values. The usual algorithm is another
one, which reduces the matrix to two diagonals first. Both compute the same values up to rounding, and
the rank and the condition number are all that is made of them. No theorem depends on how the values are
computed. -/
namespace NumericWorkbench
namespace Linear

/-- The largest magnitude, zero if there are no numbers. -/
def largest (xs : List Float) : Float :=
  xs.foldl (fun best x => if best < x.abs then x.abs else best) 0.0

def dot {m : Nat} (x y : Vector Float m) : Float := Arithmetic.sum (x.zipWith (· * ·) y).toList

/-- The length of a vector. It is scaled, so that no square is too large or too small. -/
def length {m : Nat} (x : Vector Float m) : Float :=
  let scale := largest x.toList
  if scale == 0.0 then 0.0
  else
    let unit := x.map (· / scale)
    scale*(dot unit unit).sqrt

/-- The cosine and the sine of the rotation that makes two columns of lengths `a` and `b` with
the product `c` orthogonal. -/
def rotation (a b c : Float) : Float × Float :=
  let z := (b*b-a*a)/(2.0*c)
  let h := if 1e8 < z.abs then z.abs else (1.0+z*z).sqrt
  let t := (if z < 0.0 then -1.0 else 1.0)/(z.abs+h)
  let cosine := 1.0/(1.0+t*t).sqrt
  (cosine,cosine*t)

/-- Make columns `p` and `q` orthogonal, unless they are so already up to rounding. -/
def rotate {m n : Nat} (columns : Mat Float n m) (p q : Fin n) : Option (Mat Float n m) :=
  let x := columns.get p
  let y := columns.get q
  let a := length x
  let b := length y
  let c := dot x y
  if 1e-15*a*b < c.abs then
    let (cosine,sine) := rotation a b c
    let turned := Vec.replace columns p (x.zipWith (fun u v => cosine*u-sine*v) y)
    some (Vec.replace turned q (x.zipWith (fun u v => sine*u+cosine*v) y))
  else none

def pairs (n : Nat) : List (Fin n × Fin n) :=
  (List.finRange n).flatMap fun p => ((List.finRange n).filter (p < ·)).map fun q => (p,q)

/-- Go over all pairs of columns until none needs a rotation, but at most the given number of
times. -/
def orthogonalize {m n : Nat} : Nat → Mat Float n m → Mat Float n m
  | 0,columns => columns
  | more+1,columns =>
    let (columns,rotated) := (pairs n).foldl
      (fun (columns,rotated) (p,q) =>
        match rotate columns p q with
        | some columns => (columns,true)
        | none => (columns,rotated))
      (columns,false)
    if rotated then orthogonalize more columns else columns

def columnLengths {m n : Nat} (columns : Mat Float n m) : List Float :=
  let scale := largest columns.entries
  if scale == 0.0 then columns.toList.map fun _ => 0.0
  else
    (orthogonalize 60 (columns.map fun x => x.map (· / scale))).toList.map fun x =>
      scale*length x

/-- As many as the smaller of the two sizes, in no particular order. Any other function that computes
them could stand here: no theorem opens this one. -/
def singularValues {m n : Nat} (a : Mat Float m n) : List Float :=
  if m < n then columnLengths a else columnLengths a.transpose

end Linear
end NumericWorkbench
