import NumericWorkbench.Log
/-! What a demonstration shows: lines of text, and the records of the computations behind them. -/
namespace NumericWorkbench
namespace Demonstration

structure Shown where
  lines : List String
  records : List Log.Record

namespace Shown

instance : Append Shown := ⟨fun a b => ⟨a.lines ++ b.lines,a.records ++ b.records⟩⟩

def all (parts : List Shown) : Shown := ⟨parts.flatMap lines,parts.flatMap records⟩

def text (s : Shown) : String := String.join (s.lines.map (· ++ "\n"))

end Shown

def unknown (number : Nat) : Shown := ⟨[s!"example {number} does not exist"],[]⟩

def alignRight (width : Nat) (text : String) : String :=
  String.ofList (List.replicate (width-text.length) ' ') ++ text

def listing (items : List String) : String := "[" ++ ", ".intercalate items ++ "]"

end Demonstration
end NumericWorkbench
