/-! The functions and constants that a formula may name. -/
namespace NumericWorkbench
namespace Formula

inductive Elementary where
  | sin | cos | tan | asin | acos | atan | sqrt | abs | exp | ln | log10 | sign | floor | ceil
deriving Repr,DecidableEq

namespace Elementary

def all : List Elementary :=
  [sin,cos,tan,asin,acos,atan,sqrt,abs,exp,ln,log10,sign,floor,ceil]

def name : Elementary → String
  | sin => "sin" | cos => "cos" | tan => "tan"
  | asin => "asin" | acos => "acos" | atan => "atan"
  | sqrt => "sqrt" | abs => "abs" | exp => "exp" | ln => "ln" | log10 => "log10"
  | sign => "sign" | floor => "floor" | ceil => "ceil"

/-- The natural logarithm may be written in two ways, every other function in one. -/
def spellings : Elementary → List String
  | ln => ["ln","log"]
  | f => [f.name]

theorem name_mem_spellings (f : Elementary) : f.name ∈ f.spellings := by cases f <;> decide

def ofName? (text : String) : Option Elementary := all.find? fun f => f.spellings.contains text

/-- The value at a point. Outside the domain it is not a number or infinite. A zero has itself as
its sign. -/
def apply : Elementary → Float → Float
  | sin,x => x.sin
  | cos,x => x.cos
  | tan,x => x.tan
  | asin,x => x.asin
  | acos,x => x.acos
  | atan,x => x.atan
  | sqrt,x => x.sqrt
  | abs,x => x.abs
  | exp,x => x.exp
  | ln,x => x.log
  | log10,x => x.log10
  | sign,x => if 0 < x then 1 else if x < 0 then -1 else x
  | floor,x => x.floor
  | ceil,x => x.ceil

end Elementary

inductive Constant where
  | pi | e
deriving Repr,DecidableEq

namespace Constant

def name : Constant → String
  | pi => "pi"
  | e => "e"

def ofName? : String → Option Constant
  | "pi" => some pi
  | "e" => some e
  | _ => none

def value : Constant → Float
  | pi => 3.141592653589793
  | e => 2.718281828459045

end Constant
end Formula
end NumericWorkbench
