/-! The contents of files, and why there may be none. -/
namespace NumericWorkbench
namespace File

inductive Fault where
  | missing
  | notDirectory
  | isDirectory
  | forbidden
  | nameTooLong
  | nameWithNul
  /-- The bytes are not the UTF-8 form of any text. -/
  | notText
  | other (message : String)
deriving Repr,DecidableEq

def Fault.message : Fault → String
  | missing => "No such file or directory (os error 2)"
  | forbidden => "Permission denied (os error 13)"
  | notDirectory => "Not a directory (os error 20)"
  | isDirectory => "Is a directory (os error 21)"
  | nameTooLong => "File name too long (os error 36)"
  | nameWithNul => "file name contained an unexpected NUL byte"
  | notText => "stream did not contain valid UTF-8"
  | other message => message

/-- What a path gives: the bytes of a file, or a fault. -/
abbrev Content := Except Fault ByteArray

def Content.text (content : Content) : Except Fault String :=
  match content with
  | .error fault => .error fault
  | .ok bytes =>
    match String.fromUTF8? bytes with
    | some text => .ok text
    | none => .error .notText

/-- The fault of a path at which there is no file. A name may have 255 bytes, a path 4095. -/
def faultAt (path : String) : Fault :=
  if path.toList.contains '\x00' then .nameWithNul
  else if 4095 < path.utf8ByteSize then .nameTooLong
  else if (path.splitOn "/").any fun name => 255 < name.utf8ByteSize then .nameTooLong
  else .missing

end File
end NumericWorkbench
