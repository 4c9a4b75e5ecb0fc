import NumericWorkbench.Document.Error
import NumericWorkbench.Document.Reader
import NumericWorkbench.Number.Input
/-! Sections of a task document: a title and entries of the form `key: value`. The value of an
entry is text until somebody asks for numbers. -/
namespace NumericWorkbench
namespace Document

structure Entry where
  key : String
  value : String
deriving Repr,DecidableEq

structure Section where
  title : String
  entries : List Entry
deriving Repr,DecidableEq

/-- One number, up to the next separator. -/
def readValue : Reader Float := fun cs =>
  let ends := fun c => c == ';' || c == '|'
  (Number.readReal (cs.takeWhile fun c => !ends c)).map fun x => (x,cs.dropWhile fun c => !ends c)

/-- `1; 2,5; -3` -/
def readList : Reader (List Float) := Reader.separated ';' readValue

/-- `2; 1 | 1; 3` -/
def readRows : Reader (List (List Float)) := Reader.separated '|' readList

namespace Section

def get? (s : Section) (key : String) : Option String :=
  (s.entries.find? fun e => e.key = key).map Entry.value

def require (s : Section) (key : String) : Except Error String :=
  match s.get? key with
  | some value => .ok value
  | none => .error (.missingKey s.title key)

/-- Look at the entries from the first to the last; `seen` are the keys before them. -/
def checkEntries (title : String) (allowed : List String) :
    List String → List Entry → Except Error Unit
  | _,[] => .ok ()
  | seen,e::es =>
    if e.key ∉ allowed then .error (.unknownKey title e.key)
    else if e.key ∈ seen then .error (.duplicateKey title e.key)
    else checkEntries title allowed (e.key::seen) es

/-- Every key has to be allowed and to appear once. -/
def checkKeys (s : Section) (allowed : List String) : Except Error Unit :=
  checkEntries s.title allowed [] s.entries

def invalid (s : Section) (key value expected : String) : Error :=
  .invalidValue s.title key value expected

def read {α : Type} (s : Section) (key : String) (p : List Char → Option α) (expected : String) :
    Except Error (Option α) :=
  match s.get? key with
  | none => .ok none
  | some value =>
    match p value.toList with
    | some x => .ok (some x)
    | none => .error (s.invalid key value expected)

def real (s : Section) (key : String) : Except Error (Option Float) :=
  s.read key readValue.whole "a number"

def reals (s : Section) (key : String) : Except Error (Option (List Float)) :=
  s.read key readList.whole "numbers separated by ';'"

def rows (s : Section) (key : String) : Except Error (Option (List (List Float))) :=
  s.read key readRows.whole "rows separated by '|' with numbers separated by ';'"

def count (s : Section) (key : String) : Except Error (Option Nat) :=
  s.read key Number.readCount "a non-negative integer"

end Section
end Document
end NumericWorkbench
