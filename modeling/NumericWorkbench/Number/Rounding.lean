import NumericWorkbench.Number.Binary
import NumericWorkbench.Number.Decimal
/-! Rounding of a binary magnitude to a fixed number of significant decimal digits. -/
namespace NumericWorkbench
namespace Number

/-- The nearest whole number to `n / d`; a tie goes to the even one. -/
def nearestEven (n d : Nat) : Nat :=
  let q := n/d
  match compare (2*(n-q*d)) d with
  | .lt => q
  | .gt => q+1
  | .eq => if q % 2 = 0 then q else q+1

/-- The nearest decimal with exactly `k` digits. A carry beyond the first digit is undone by
one step of the exponent, so `99.96` with three digits is `100 * 10 ^ 0`. -/
def roundTo (k : Nat) (b : Binary) : Decimal :=
  let (num,den) := twoPower b.mantissa b.exponent
  let p := leadingPower num den-k+1
  let (n,d) := inUnits num den p
  let c := nearestEven n d
  if c = Nat.pow 10 k then ⟨Nat.pow 10 (k-1),p+1⟩ else ⟨c,p⟩

end Number
end NumericWorkbench
