/-! White space in the sense of Unicode, the trimming of a text, and its lines. -/
namespace NumericWorkbench
namespace Text

/-- The characters with the Unicode property White_Space. -/
def isBlank (c : Char) : Bool :=
  let n := c.toNat
  n == 0x20 || (0x9 ≤ n && n ≤ 0xD) || n == 0x85 || n == 0xA0 || n == 0x1680 ||
    (0x2000 ≤ n && n ≤ 0x200A) || n == 0x2028 || n == 0x2029 || n == 0x202F || n == 0x205F ||
    n == 0x3000

def trim (cs : List Char) : List Char :=
  ((cs.dropWhile isBlank).reverse.dropWhile isBlank).reverse

/-- The pieces between the separators; `n` separators make `n+1` pieces. -/
def pieces (separator : Char) : List Char → List (List Char)
  | [] => [[]]
  | c::cs =>
    if c = separator then []::pieces separator cs
    else
      match pieces separator cs with
      | [] => [[c]]
      | p::ps => (c::p)::ps

theorem pieces_ne_nil (separator : Char) (cs : List Char) : pieces separator cs ≠ [] := by
  cases cs with
  | nil => simp [pieces]
  | cons c cs =>
    simp only [pieces]
    split
    · simp
    · split <;> simp

/-- A carriage return that stands directly before a line feed belongs to the line end. -/
def dropReturn (line : List Char) : List Char :=
  if line.getLast? = some '\r' then line.dropLast else line

/-- The lines of a text. A line feed ends a line; a text after the last one is a line too. -/
def lines (cs : List Char) : List (List Char) :=
  let ps := pieces '\n' cs
  let last := ps.getLast?.getD []
  ps.dropLast.map dropReturn ++ (if last.isEmpty then [] else [last])

end Text
end NumericWorkbench
