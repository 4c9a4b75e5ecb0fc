import NumericWorkbench.Document.Sections
import NumericWorkbench.Linear.System
import NumericWorkbench.Roots.Scan
/-! The tasks that a document can hold, and how a section describes one. -/
namespace NumericWorkbench

inductive Task where
  /-- Evaluate a function at points. -/
  | evaluate (function : String) (points : List Float)
  /-- Find a root between two points. -/
  | bisection (function : String) (a b : Float) (settings : Roots.Settings Float)
  /-- Find all roots on an interval. -/
  | scan (function : String) (scan : Roots.Scan Float)
  /-- Solve a linear system. -/
  | linear (method : Linear.Method) (system : Linear.System)

namespace Task

inductive Kind where
  | evaluate | bisection | scan | linear
deriving Repr,DecidableEq

namespace Kind

def all : List Kind := [evaluate,bisection,scan,linear]

def name : Kind → String
  | evaluate => "evaluate"
  | bisection => "bisection"
  | scan => "scan"
  | linear => "linear"

def ofName? (text : String) : Option Kind := all.find? fun kind => kind.name = text

def allowedKeys : Kind → List String
  | evaluate => ["function","points"]
  | bisection => ["function","interval","tolerance","max_iterations"]
  | scan => ["function","interval","steps","tolerance","max_iterations"]
  | linear => ["method","matrix","rhs"]

end Kind

def kind : Task → Kind
  | evaluate .. => .evaluate
  | bisection .. => .bisection
  | scan .. => .scan
  | linear .. => .linear

open Document

def readInterval (s : Section) : Except Error (Option (Float × Float)) := do
  match ← s.reals "interval" with
  | none => return none
  | some [a,b] => return some (a,b)
  | some _ =>
    throw (s.invalid "interval" ((s.get? "interval").getD "") "two numbers 'a; b'")

def readMethod (s : Section) : Except Error Linear.Method :=
  match s.get? "method" with
  | none => .ok .standard
  | some name =>
    match Linear.Method.ofName? name with
    | some method => .ok method
    | none => .error (s.invalid "method" name "gauss, lu or both")

/-- The system of a matrix given by its rows, all of which need as many entries as the first. -/
def systemOf (s : Section) (rows : List (List Float)) (rhs : List Float) :
    Except Error Linear.System :=
  let n := (rows.head?.map List.length).getD 0
  if h : ∀ row ∈ rows, row.length = n then
    .ok ⟨rows.length,n,rhs.toArray.size,Mat.ofRows rows n h,rhs.toArray.toVector⟩
  else .error (s.invalid "matrix" ((s.get? "matrix").getD "") "rows of equal length")

def evaluateOf (s : Section) : Except Error Task := do
  let function ← s.require "function"
  let _ ← s.require "points"
  return .evaluate function ((← s.reals "points").getD [])

def bisectionOf (s : Section) : Except Error Task := do
  let function ← s.require "function"
  let _ ← s.require "interval"
  let (a,b) := (← readInterval s).getD (0.0,0.0)
  let standard : Roots.Settings Float := .standard
  let tolerance := (← s.real "tolerance").getD standard.tolerance
  let maxIterations := (← s.count "max_iterations").getD standard.maxIterations
  return .bisection function a b ⟨tolerance,maxIterations⟩

def scanOf (s : Section) : Except Error Task := do
  let function ← s.require "function"
  let standard : Roots.Scan Float := .standard
  let (start,stop) := (← readInterval s).getD (standard.start,standard.stop)
  let steps := (← s.reals "steps").getD standard.steps
  let tolerance := (← s.real "tolerance").getD standard.tolerance
  let maxIterations := (← s.count "max_iterations").getD standard.maxIterations
  return .scan function ⟨start,stop,steps,tolerance,maxIterations,standard.exactThreshold⟩

def linearOf (s : Section) : Except Error Task := do
  let method ← readMethod s
  let _ ← s.require "matrix"
  let _ ← s.require "rhs"
  let rows := (← s.rows "matrix").getD []
  let rhs := (← s.reals "rhs").getD []
  return .linear method (← systemOf s rows rhs)

/-- The task that a section describes. The first thing that is wrong with it is reported: the
title, then the keys, then the values one after the other. -/
def ofSection (s : Section) : Except Error Task := do
  match Kind.ofName? s.title with
  | none => throw (.unknownSection s.title)
  | some kind =>
    s.checkKeys kind.allowedKeys
    match kind with
    | .evaluate => evaluateOf s
    | .bisection => bisectionOf s
    | .scan => scanOf s
    | .linear => linearOf s

def ofSections (sections : List Section) : Except Error (List Task) := sections.mapM ofSection

/-- The tasks of a document in their order. -/
def parse (text : String) : Except Error (List Task) := do
  ofSections (← Document.parse text)

def parseFile (path : String) (content : File.Content) : Except Error (List Task) := do
  ofSections (← Document.parseFile path content)

end Task
end NumericWorkbench
