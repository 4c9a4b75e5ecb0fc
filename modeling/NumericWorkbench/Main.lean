import NumericWorkbench.Command
/-! The program: it reads the file that the arguments name, and writes what the command gives. -/
namespace NumericWorkbench

def readContent (path : String) : IO File.Content := do
  try
    return .ok (← IO.FS.readBinFile path)
  catch
    | .noFileOrDirectory .. => return .error (File.faultAt path)
    | .permissionDenied .. => return .error .forbidden
    | .inappropriateType .. => return .error .isDirectory
    | e => return .error (.other (toString e))

def answerArguments (arguments : List String) : IO UInt32 := do
  let content ←
    match Command.Request.ofArguments arguments with
    | .document path => readContent path
    | .demonstration _ _ => pure (.error .missing)
  let output := Command.run arguments fun _ => content
  IO.print output.messages
  IO.print output.text
  IO.eprint output.errors
  return output.status.toUInt32

end NumericWorkbench

def main (arguments : List String) : IO UInt32 := NumericWorkbench.answerArguments arguments
