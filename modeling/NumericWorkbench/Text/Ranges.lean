/-! Sets of characters as ranges of code points. All tables of such ranges follow Unicode 17. -/
namespace NumericWorkbench
namespace Text

/-- A code point lies in one of the ranges, each given by its first and its last element. -/
def inRanges (ranges : Array (Nat × Nat)) (n : Nat) : Bool :=
  ranges.any fun (first,last) => first ≤ n && n ≤ last

end Text
end NumericWorkbench
