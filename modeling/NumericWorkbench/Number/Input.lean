import NumericWorkbench.Number.Literal
import NumericWorkbench.Text.Blank
/-! Numbers as people type them: a comma is a decimal point too, and blanks around a number do
not count. What is not a finite number is refused, never read as zero. -/
namespace NumericWorkbench
namespace Number

def isSeparator (c : Char) : Bool := c == ',' || c == '.'

/-- The characters of a typed number, which keep out the words for infinities. -/
def isTyped (c : Char) : Bool :=
  c.isDigit || isSeparator c || c == '+' || c == '-' || c == 'e' || c == 'E'

/-- One finite number. -/
def readReal (cs : List Char) : Option Float :=
  let text := Text.trim cs
  if text.isEmpty || 1 < text.countP isSeparator || !text.all isTyped then none
  else (read (text.map fun c => if c = ',' then '.' else c)).filter Float.isFinite

/-- Numbers with a separator between them, all of which have to be readable. -/
def readReals (separator : Char) (cs : List Char) : Option (List Float) :=
  (Text.pieces separator cs).mapM readReal

end Number
end NumericWorkbench
