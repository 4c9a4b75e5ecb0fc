import NumericWorkbench.Number.Decimal
/-! Reading of number literals: an optional sign, digits with at most one point, an optional
exponent. The value is the nearest floating-point number. -/
namespace NumericWorkbench
namespace Number

def takeSign : List Char → Bool × List Char
  | '+'::cs => (false,cs)
  | '-'::cs => (true,cs)
  | cs => (false,cs)

/-- A whole number that is nothing but digits, at least one. -/
def readDigits (cs : List Char) : Option Nat :=
  if cs.isEmpty || !cs.all Char.isDigit then none else some (ofDigits cs)

/-- What may follow the digits of a literal: nothing, or `e` and a whole number. -/
def readPower : List Char → Option Int
  | [] => some 0
  | c::cs =>
    if c = 'e' ∨ c = 'E' then
      let (negative,ds) := takeSign cs
      (readDigits ds).map fun n => if negative then -(n : Int) else n
    else none

/-- The digits before the point, those after it, and what follows them. -/
def splitPoint (cs : List Char) : List Char × List Char × List Char :=
  match cs.dropWhile Char.isDigit with
  | '.'::rest => (cs.takeWhile Char.isDigit,rest.takeWhile Char.isDigit,rest.dropWhile Char.isDigit)
  | rest => (cs.takeWhile Char.isDigit,[],rest)

/-- The floating-point number nearest to `m * 10 ^ e`. -/
def scaled (m : Nat) (e : Int) : Float := OfScientific.ofScientific m (e < 0) e.natAbs

/-- A literal without sign. A point needs a digit on at least one side. -/
def readMagnitude (cs : List Char) : Option Float :=
  let (whole,fraction,rest) := splitPoint cs
  if whole.isEmpty && fraction.isEmpty then none
  else (readPower rest).map fun e => scaled (ofDigits (whole ++ fraction)) (e-fraction.length)

def infinity : Float := 1.0/0.0

/-- The words for the values that are not finite, in any case. -/
def readWord (cs : List Char) : Option Float :=
  let word := cs.map Char.toLower
  if word = ['i','n','f'] ∨ word = ['i','n','f','i','n','i','t','y'] then some infinity
  else if word = ['n','a','n'] then some (0.0/0.0)
  else none

/-- A number as a program writes it: a literal or a word, with an optional sign. -/
def read (cs : List Char) : Option Float :=
  let (negative,body) := takeSign cs
  (readWord body <|> readMagnitude body).map fun x => if negative then -x else x

/-- The number of counts, which have sixty-four bits. -/
def countLimit : Nat := 0x10000000000000000

/-- A count: digits after an optional `+`. -/
def readCount (cs : List Char) : Option Nat :=
  let digits :=
    match cs with
    | '+'::ds => ds
    | ds => ds
  (readDigits digits).filter (· < countLimit)

end Number
end NumericWorkbench
