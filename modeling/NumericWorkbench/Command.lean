import NumericWorkbench.Demonstration.Group
/-! The command line. A number asks for a numerical demonstration, the name of another group with a
number for one of that group, and any other argument is the path of a task document. A second
argument after a number or a path says how much is told about the computations. -/
namespace NumericWorkbench
namespace Command
open Demonstration

inductive Request where
  | demonstration (group : Group) (number : Nat)
  | document (path : String)
deriving Repr,DecidableEq

def namedGroup? (argument : String) : Option Group :=
  [Group.symbolic,Group.tasks].find? fun group => group.name = argument

def count? (argument : String) : Option Nat := Number.readCount argument.toList

def Request.ofArguments : List String → Request
  | [] => .demonstration .numerical 0
  | first::rest =>
    match count? first with
    | some number => .demonstration .numerical number
    | none =>
      match namedGroup? first with
      | some group => .demonstration group ((rest.head?.bind count?).getD 0)
      | none => .document first

/-- Everything up to informative messages, unless the arguments say otherwise. -/
def thresholdOf : List String → Log.Threshold
  | first::second::_ =>
    match namedGroup? first with
    | some _ => some .info
    | none => (Log.Threshold.ofName? second).getD (some .info)
  | _ => some .info

/-- What a command gives: messages, a text, and a status that is zero for success. -/
structure Output where
  records : List Log.Record
  text : String
  status : Nat
deriving Repr,DecidableEq

def resultText : Task × Task.Result → String
  | (_,.ok o) => Report.outcome o ++ "\n"
  | (t,.error e) => s!"{t.kind.name} task failed: {e.message}\n\n"

/-- The status of a run that could not be finished. -/
def aborted : Nat := 134

/-- Run the tasks of a document. A task that failed makes the whole command fail, but all results
are shown. -/
def runDocument (path : String) (content : File.Content) : Output :=
  let records := Task.fileRecords path content
  match Task.runFile path content with
  | .error (.refused e) => ⟨records ++ [⟨.error,e.message⟩],"",1⟩
  | .error (.undiagnosable _) => ⟨records,"",aborted⟩
  | .ok results =>
    ⟨records,String.join (results.map resultText),
      if results.all fun (_,r) => r.isOk then 0 else 1⟩

def run (arguments : List String) (files : String → File.Content) : Output :=
  let output : Output :=
    match Request.ofArguments arguments with
    | .demonstration group number =>
      let shown := group.shown number
      ⟨shown.records,shown.text,0⟩
    | .document path => runDocument path (files path)
  { output with records := Log.filter (thresholdOf arguments) output.records }

def line (r : Log.Record) : String := s!"[{r.level.name}] {r.message}\n"

def isError (r : Log.Record) : Bool := r.level = .error

/-- Errors go to the error stream. -/
def Output.errors (o : Output) : String := String.join ((o.records.filter isError).map line)

/-- All other messages go to the same stream as the text. -/
def Output.messages (o : Output) : String :=
  String.join ((o.records.filter fun r => !isError r).map line)

end Command
end NumericWorkbench
