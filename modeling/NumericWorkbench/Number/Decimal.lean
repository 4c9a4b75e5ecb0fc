/-! Decimals `digits * 10 ^ exponent`, their digits, and the decimal grid around a quotient. -/
namespace NumericWorkbench
namespace Number

/-- The magnitude `digits * 10 ^ exponent`. -/
structure Decimal where
  digits : Nat
  exponent : Int
deriving Repr,DecidableEq

/-- The decimal digits of a natural number, `0` for zero. -/
def digitsOf (n : Nat) : List Char := Nat.toDigits 10 n

def digitCount (n : Nat) : Nat := (digitsOf n).length

def ofDigits (cs : List Char) : Nat := Nat.ofDigitChars 10 cs 0

/-- The power of ten of the first digit of a positive quotient: the `k` with
`10 ^ k ≤ num / den < 10 ^ (k+1)`. -/
def leadingPower (num den : Nat) : Int :=
  if den ≤ num then (digitCount (num / den) : Int)-1 else -(digitCount ((den-1) / num) : Int)

/-- `num / den` in units of `10 ^ p`, as a numerator and a denominator. -/
def inUnits (num den : Nat) (p : Int) : Nat × Nat := (num*Nat.pow 10 (-p).toNat,den*Nat.pow 10 p.toNat)

/-- Move the trailing zeros of the digits into the exponent. -/
def Decimal.stripZeros (d : Decimal) : Decimal := go (digitCount d.digits) d
where
  go : Nat → Decimal → Decimal
    | 0,d => d
    | n+1,d => if d.digits % 10 = 0 then go n ⟨d.digits/10,d.exponent+1⟩ else d

end Number
end NumericWorkbench
