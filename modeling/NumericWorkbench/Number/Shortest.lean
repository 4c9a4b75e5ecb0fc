import NumericWorkbench.Number.Binary
import NumericWorkbench.Number.Decimal
/-! The decimal with the fewest digits among those that round to a given binary magnitude, and
of those the nearest. On each decimal grid only the two neighbours of the magnitude are tried. -/
namespace NumericWorkbench
namespace Number

/-- The magnitudes that round to `b` lie between `lower` and `upper` quarters of its unit.
The ends belong to it when the mantissa is even, because a tie goes to the even neighbour. -/
def Binary.lower (b : Binary) : Nat := if b.leading then 4*b.mantissa-1 else 4*b.mantissa-2
def Binary.upper (b : Binary) : Nat := 4*b.mantissa+2
def Binary.closed (b : Binary) : Bool := b.mantissa % 2 == 0

/-- Compare `c * 10 ^ p` with `n * 2 ^ e` in whole numbers. -/
def compareDecimal (c : Nat) (p : Int) (n : Nat) (e : Int) : Ordering :=
  compare (c*Nat.pow 10 p.toNat*Nat.pow 2 (-e).toNat)
    (n*Nat.pow 2 e.toNat*Nat.pow 10 (-p).toNat)

/-- The decimal `c * 10 ^ p` is read back as `b`. -/
def readsBack (b : Binary) (c : Nat) (p : Int) : Bool :=
  let low := compareDecimal c p b.lower (b.exponent-2)
  let high := compareDecimal c p b.upper (b.exponent-2)
  (low == .gt || (low == .eq && b.closed)) && (high == .lt || (high == .eq && b.closed))

/-- The neighbours of `b` with `k` digits, the nearer one if both read back. A tie goes up. -/
def onGrid (b : Binary) (k : Nat) : Option Decimal :=
  let (num,den) := twoPower b.mantissa b.exponent
  let p := leadingPower num den-k+1
  let (n,d) := inUnits num den p
  let c := n/d
  match readsBack b c p,readsBack b (c+1) p with
  | true,true => if 2*(n-c*d) < d then some ⟨c,p⟩ else some ⟨c+1,p⟩
  | true,false => some ⟨c,p⟩
  | false,true => some ⟨c+1,p⟩
  | false,false => none

/-- The fewest digits that are read back. There are never more than seventeen. -/
def shortest (b : Binary) : Decimal :=
  (((List.range' 1 17).findSome? (onGrid b)).getD ⟨0,0⟩).stripZeros

end Number
end NumericWorkbench
