/-! A floating-point number as sign, integer and power of two, read from its bits. -/
namespace NumericWorkbench
namespace Number

/-- The magnitude `mantissa * 2 ^ exponent`. A magnitude `leading` is the smallest one of its
power of two, so its lower neighbour is only half as far as its upper one. -/
structure Binary where
  mantissa : Nat
  exponent : Int
  leading : Bool
deriving Repr,DecidableEq

inductive Shape where
  | undefined
  | infinite (negative : Bool)
  | finite (negative : Bool) (magnitude : Binary)
deriving Repr,DecidableEq

/-- Half of the 64-bit numbers; the bits of a negative number are not below it. -/
def signUnit : Nat := 0x8000000000000000

/-- The number of fractions for one exponent. -/
def fractionUnit : Nat := 0x10000000000000

/-- One sign bit, eleven bits of exponent and fifty-two bits of fraction. -/
def Shape.ofBits (bits : UInt64) : Shape :=
  let n := bits.toNat
  let negative := n / signUnit == 1
  let power : Nat := n / fractionUnit % 2048
  let fraction : Nat := n % fractionUnit
  if power = 2047 then
    if fraction = 0 then .infinite negative else .undefined
  else if power = 0 then .finite negative ⟨fraction,-1074,false⟩
  else .finite negative ⟨fractionUnit+fraction,(power : Int)-1075,fraction == 0 && 1 < power⟩

def shape (x : Float) : Shape := Shape.ofBits x.toBits

/-- Numerator and denominator of `n * 2 ^ e`. -/
def twoPower (n : Nat) (e : Int) : Nat × Nat := (n*Nat.pow 2 e.toNat,Nat.pow 2 (-e).toNat)

/-- The sign bit, which tells `-0` from `0`. -/
def signBit (x : Float) : Bool := x.toBits.toNat / signUnit == 1

end Number
end NumericWorkbench
