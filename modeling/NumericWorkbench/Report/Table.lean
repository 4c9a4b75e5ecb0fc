import NumericWorkbench.Text.Blank
import NumericWorkbench.Text.Width
/-! Tables drawn with lines. Every column is as wide as its widest cell, with one blank on either
side. A cell may have several lines, and then its row has as many. -/
namespace NumericWorkbench
namespace Report
namespace Table

def cellLines (cell : String) : List (List Char) := Text.pieces '\n' cell.toList

def cellWidth (cell : String) : Nat := ((cellLines cell).map Text.width).foldl max 0

/-- The widths of the columns. All rows have the same number of cells. -/
def widths : List (List String) → List Nat
  | [] => []
  | [row] => row.map cellWidth
  | row::rows => (row.map cellWidth).zipWith max (widths rows)

/-- A line across the table with the given ends and crossings. -/
def rule (left crossing right : String) (widths : List Nat) : String :=
  left ++ crossing.intercalate (widths.map fun w => String.ofList (List.replicate (w+2) '─')) ++ right

def padded (width : Nat) (line : List Char) : String :=
  String.ofList (line ++ List.replicate (width-Text.width line) ' ')

def rowLine (widths : List Nat) (row : List String) (i : Nat) : String :=
  let cells := widths.zipWith (fun w cell => padded w ((cellLines cell)[i]?.getD [])) row
  "│ " ++ " │ ".intercalate cells ++ " │"

def rowLines (widths : List Nat) (row : List String) : List String :=
  let height := (row.map fun cell => (cellLines cell).length).foldl max 1
  (List.range height).map (rowLine widths row)

/-- A table without cells is the empty text. -/
def draw (rows : List (List String)) : String :=
  let ws := widths rows
  if ws.isEmpty then ""
  else
    let body := [rule "├" "┼" "┤" ws].intercalate (rows.map (rowLines ws))
    "\n".intercalate (rule "╭" "┬" "╮" ws::body ++ [rule "╰" "┴" "╯" ws])

end Table
end Report
end NumericWorkbench
