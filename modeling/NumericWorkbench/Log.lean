import NumericWorkbench.Text.Blank
/-! Messages about the progress of a computation. A computation is a pure function; the messages
about it are computed beside it, from its input and its result. -/
namespace NumericWorkbench
namespace Log

/-- From the most to the least urgent. -/
inductive Level where
  | error | warn | info | debug | trace
deriving Repr,DecidableEq

namespace Level

def rank : Level → Nat
  | error => 1
  | warn => 2
  | info => 3
  | debug => 4
  | trace => 5

def name : Level → String
  | error => "ERROR"
  | warn => "WARN"
  | info => "INFO"
  | debug => "DEBUG"
  | trace => "TRACE"

end Level

structure Record where
  level : Level
  message : String
deriving Repr,DecidableEq

/-- How much is shown: nothing, or everything up to a level. -/
abbrev Threshold := Option Level

def Threshold.name : Threshold → String
  | none => "OFF"
  | some level => level.name

def Threshold.all : List Threshold :=
  [none,some .error,some .warn,some .info,some .debug,some .trace]

def Threshold.shows (threshold : Threshold) (r : Record) : Bool :=
  threshold.any fun level => r.level.rank ≤ level.rank

/-- A threshold by its name, in any case and with blanks around it. -/
def Threshold.ofName? (text : String) : Option Threshold :=
  let name := (Text.trim text.toList).map Char.toUpper
  Threshold.all.find? fun threshold => threshold.name.toList = name

def filter (threshold : Threshold) (records : List Record) : List Record :=
  records.filter threshold.shows

end Log
end NumericWorkbench
