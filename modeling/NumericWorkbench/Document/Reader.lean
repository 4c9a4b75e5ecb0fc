/-! Readers of a text from its start. A reader gives a value and what is left of the text, or
fails and takes nothing. -/
namespace NumericWorkbench

/-- A reader of characters. -/
abbrev Reader (α : Type) := List Char → Option (α × List Char)

namespace Reader
variable {α : Type}

/-- Read as often as possible. A reader that takes nothing is stopped after one value. -/
def many (p : Reader α) (cs : List Char) : List α × List Char :=
  match p cs with
  | none => ([],cs)
  | some (x,rest) =>
    if rest.length < cs.length then
      let (xs,rest) := many p rest
      (x::xs,rest)
    else ([x],rest)
termination_by cs.length

def many1 (p : Reader α) : Reader (List α) := fun cs => do
  let (x,rest) ← p cs
  let (xs,rest) := many p rest
  return (x::xs,rest)

def char (c : Char) : Reader Unit
  | [] => none
  | d::cs => if d = c then some ((),cs) else none

def after (c : Char) (p : Reader α) : Reader α := fun cs => do
  let ((),cs) ← char c cs
  p cs

/-- Values with a separator between them, at least one. A separator is taken only together with
the value after it. -/
def separated (separator : Char) (p : Reader α) : Reader (List α) := fun cs => do
  let (x,rest) ← p cs
  let (xs,rest) := many (after separator p) rest
  return (x::xs,rest)

/-- The value of a reader that takes the whole text. -/
def whole (p : Reader α) (cs : List Char) : Option α :=
  match p cs with
  | some (x,[]) => some x
  | _ => none

end Reader
end NumericWorkbench
