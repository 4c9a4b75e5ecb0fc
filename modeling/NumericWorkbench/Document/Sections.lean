import NumericWorkbench.Document.Section
/-! The text of a task document: sections of a title line and entry lines. Lines that are blank or
begin with `//`, `#` or `%` do not count. -/
namespace NumericWorkbench
namespace Document

def isSpace (c : Char) : Bool := c == ' ' || c == '\t'

def isWord (c : Char) : Bool := c.isAlphanum || c == '_'

/-- Letters, digits and underscores, with no digit in front. -/
def identifier : Reader (List Char)
  | [] => none
  | c::cs =>
    if c.isAlpha || c == '_' then some (c::cs.takeWhile isWord,cs.dropWhile isWord) else none

def spacedIdentifier : Reader (List Char) := fun cs => do
  let (name,rest) ← identifier (cs.dropWhile isSpace)
  return (name,rest.dropWhile isSpace)

/-- A line ends with a line feed, which may follow a carriage return, or with the text. -/
def lineEnd : Reader Unit
  | [] => some ((),[])
  | '\n'::cs => some ((),cs)
  | '\r' :: '\n' :: cs => some ((),cs)
  | _ => none

/-- All up to the end of the line. No other carriage return may stand there. -/
def lineRest : Reader (List Char)
  | [] => some ([],[])
  | '\n'::cs => some ([],'\n'::cs)
  | '\r' :: '\n' :: cs => some ([],'\r' :: '\n' :: cs)
  | '\r' :: _ => none
  | c::cs => (lineRest cs).map fun (line,rest) => (c::line,rest)

/-- A title stands alone on its line. -/
def title : Reader String := fun cs => do
  let (name,rest) ← spacedIdentifier cs
  let ((),rest) ← lineEnd rest
  return (String.ofList name,rest)

/-- The value of an entry is all after the first colon, without the blanks around it. -/
def entry : Reader Entry := fun cs => do
  let (key,rest) ← spacedIdentifier cs
  let ((),rest) ← Reader.char ':' rest
  let (value,rest) ← lineRest rest
  let ((),rest) ← lineEnd rest
  return (⟨String.ofList key,String.ofList (Text.trim value)⟩,rest)

def sectionReader : Reader Section := fun cs => do
  let (title,rest) ← title cs
  let (entries,rest) ← Reader.many1 entry rest
  return (⟨title,entries⟩,rest)

def isKept (line : List Char) : Bool :=
  match Text.trim line with
  | [] => false
  | '/' :: '/' :: _ => false
  | c::_ => c != '#' && c != '%'

def keptLines (text : List Char) : List (List Char) := (Text.lines text).filter isKept

def kept (text : List Char) : List Char := ['\n'].intercalate (keptLines text)

/-- The sections of a document in their order. What is left after the last section that can be
read has to be nothing. -/
def parse (text : String) : Except Error (List Section) :=
  let cs := kept text.toList
  if cs.isEmpty then .error .empty
  else
    match Reader.many sectionReader cs with
    | (sections,[]) => .ok sections
    | (_,rest) =>
      .error (.malformed (String.ofList (Text.trim ((Text.lines rest).head?.getD []))))

def parseFile (path : String) (content : File.Content) : Except Error (List Section) :=
  match content.text with
  | .error fault => .error (.unreadable path fault)
  | .ok text => parse text

end Document
end NumericWorkbench
