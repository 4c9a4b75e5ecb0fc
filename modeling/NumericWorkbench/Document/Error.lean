import NumericWorkbench.Document.File
/-! Why a task document is refused. -/
namespace NumericWorkbench
namespace Document

inductive Error where
  | unreadable (path : String) (fault : File.Fault)
  /-- The first line that belongs to no section. -/
  | malformed (line : String)
  | empty
  | unknownSection (title : String)
  | unknownKey (title key : String)
  | duplicateKey (title key : String)
  | missingKey (title key : String)
  /-- A value is not what its key asks for. -/
  | invalidValue (title key value expected : String)
deriving Repr,DecidableEq

def Error.message : Error → String
  | unreadable path fault => s!"Cannot read task file: {path}: {fault.message}"
  | malformed line => s!"Syntax error in task document at '{line}'"
  | empty => "Task document has no sections"
  | unknownSection title =>
    s!"Unknown section '{title}' (expected evaluate, bisection, scan or linear)"
  | unknownKey title key => s!"Unknown key '{key}' in section '{title}'"
  | duplicateKey title key => s!"Key '{key}' is given twice in section '{title}'"
  | missingKey title key => s!"Section '{title}' needs the key '{key}'"
  | invalidValue title key value expected =>
    s!"Invalid value '{value}' for '{key}' in section '{title}': expected {expected}"

end Document
end NumericWorkbench
