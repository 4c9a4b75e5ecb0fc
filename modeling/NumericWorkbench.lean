import NumericWorkbench.Text.Width
import NumericWorkbench.Number.Short
import NumericWorkbench.Formula.Compiled
import NumericWorkbench.Roots.Scan
import NumericWorkbench.Linear.Elimination
import NumericWorkbench.Linear.Factorization
import NumericWorkbench.Linear.Diagnosis
import NumericWorkbench.Document.Sections
import NumericWorkbench.Task.Run
import NumericWorkbench.Main
import NumericWorkbench.Proofs.Formula.Grammar
import NumericWorkbench.Proofs.Formula.Parsing
import NumericWorkbench.Proofs.Exact
import NumericWorkbench.Proofs.Linear.Mat
import NumericWorkbench.Proofs.Linear.Pivot
import NumericWorkbench.Proofs.Linear.Substitution
import NumericWorkbench.Proofs.Linear.Elimination
import NumericWorkbench.Proofs.Linear.Factorization
import NumericWorkbench.Proofs.Linear.Agreement
import NumericWorkbench.Proofs.Linear.Cycles
import NumericWorkbench.Proofs.Linear.Determinant
import NumericWorkbench.Proofs.Roots.Trace
import NumericWorkbench.Proofs.Roots.Bracket
import NumericWorkbench.Proofs.Task.Answers
import NumericWorkbench.Proofs.Extended
import NumericWorkbench.Proofs.Roots.Walk
import NumericWorkbench.Proofs.Roots.Scan
import NumericWorkbench.Proofs.Document.Grammar
import NumericWorkbench.Proofs.Text.Lines
import NumericWorkbench.Proofs.Document.Parsing
import NumericWorkbench.Proofs.Document.Joining
import NumericWorkbench.Proofs.Task.Joining
import NumericWorkbench.Proofs.Document.Values
import NumericWorkbench.Proofs.Document.Separators
import NumericWorkbench.Proofs.Task.Forms
import NumericWorkbench.Proofs.Number.Sign
import NumericWorkbench.Proofs.Number.Text
import NumericWorkbench.Proofs.Formula.Scanning
import NumericWorkbench.Proofs.Formula.Printing
import NumericWorkbench.Proofs.Linear.Shape
import NumericWorkbench.Proofs.Linear.Given
import NumericWorkbench.Proofs.Formula.Literals
import NumericWorkbench.Proofs.Formula.Tokens
import NumericWorkbench.Proofs.Formula.Tiling
import NumericWorkbench.Proofs.Roots.History
import NumericWorkbench.Proofs.Formula.Products
import NumericWorkbench.Proofs.Formula.Stopping
import NumericWorkbench.Proofs.Formula.Answers
import NumericWorkbench.Proofs.Formula.Neighbours
import NumericWorkbench.Proofs.Formula.Substitution
import NumericWorkbench.Proofs.Formula.Brackets
import NumericWorkbench.Proofs.Number.Nearest
import NumericWorkbench.Proofs.Number.Rounded
import NumericWorkbench.Proofs.Number.Operations
import NumericWorkbench.Proofs.Number.Value
import NumericWorkbench.Proofs.Roots.Ends
import NumericWorkbench.Proofs.Roots.Mirror
import NumericWorkbench.Proofs.Roots.Signs
import NumericWorkbench.Proofs.Roots.Straddling
import NumericWorkbench.Proofs.Roots.Range
import NumericWorkbench.Proofs.Roots.Interior
import NumericWorkbench.Proofs.Roots.Spacing
import NumericWorkbench.Proofs.Roots.Order
import NumericWorkbench.Proofs.Roots.Reach
import NumericWorkbench.Proofs.Roots.Zeros
import NumericWorkbench.Proofs.Formula.Completion
import NumericWorkbench.Proofs.Formula.Depth
import NumericWorkbench.Proofs.Formula.Size
import NumericWorkbench.Proofs.Task.Order
import NumericWorkbench.Proofs.Number.Shape
import NumericWorkbench.Proofs.Number.Scaled
import NumericWorkbench.Proofs.Number.Numeral
import NumericWorkbench.Proofs.Number.Typed
import NumericWorkbench.Proofs.Number.Significant
import NumericWorkbench.Proofs.Number.Decimal
import NumericWorkbench.Proofs.Number.Shortest
import NumericWorkbench.Proofs.Number.Written
import NumericWorkbench.Proofs.Number.Short
