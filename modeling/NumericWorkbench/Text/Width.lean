import NumericWorkbench.Text.Ligature
/-! The number of columns that a text takes on a terminal. It is the sum over its characters, except
for line ends of two characters, emoji, ligatures and characters whose style is selected. The text
is read from its end, because the last character of a sequence shows what the sequence can be. -/
namespace NumericWorkbench
namespace Text

/-- The selectors that change the columns of the character in front of them. -/
inductive Selector where
  | asText
  | asEmoji
  /-- Quotation marks as wide as an ideograph. -/
  | wideQuote
deriving Repr,DecidableEq

def Selector.ofCode? (n : Nat) : Option Selector :=
  if n = 0xFE0E then some .asText
  else if n = 0xFE0F then some .asEmoji
  else if n = 0xFE01 then some .wideQuote
  else none

def isQuote (n : Nat) : Bool := n = 0x2018 || n = 0x2019 || n = 0x201C || n = 0x201D

/-- What a text begins with, as far as it matters for a character in front of it. -/
inductive Beginning where
  | other
  | lineFeed
  | emoji (e : EmojiEnd)
  | ligature (l : Ligature)
deriving Repr,DecidableEq

namespace Beginning

def isJoined : Beginning → Bool
  | emoji e => e.isJoined
  | _ => false

def single (n : Nat) : Beginning :=
  match Ligature.single? n with
  | some l => ligature l
  | none =>
    match EmojiEnd.single? n with
    | some e => emoji e
    | none => other

def ofLigature? : Option Ligature → Beginning
  | some l => ligature l
  | none => other

/-- The columns that a character adds in front of a text, and what the longer text begins with. -/
def before (b : Beginning) (n : Nat) : Int × Beginning :=
  let extended : Option (Int × Beginning) :=
    match b with
    | emoji e => (e.before? n).map fun (count,e) => (count,emoji e)
    | ligature l => (l.before? n).map fun (count,l) => (count,ofLigature? l)
    | _ => none
  extended.getD (columns n,single n)

end Beginning

/-- A text behind a place: what it begins with, after a selector that may stand in front. -/
structure Rest where
  selector : Option Selector
  beginning : Beginning
deriving Repr,DecidableEq

namespace Rest

def empty : Rest := ⟨none,.other⟩

/-- What the text begins with for a character that the selector does not apply to. -/
def unselected (r : Rest) : Beginning :=
  match r.selector,r.beginning with
  | none,b => b
  | some _,.ligature l => .ligature l
  | some _,_ => .other

/-- Put a selector in front. It stays inside a ligature, and inside joined emoji if it asks for one;
elsewhere it hides what is behind it. -/
def select (r : Rest) (s : Selector) : Rest :=
  match r.unselected with
  | .ligature l => ⟨some s,.ligature l⟩
  | b => if s = .asEmoji ∧ b.isJoined then ⟨some s,b⟩ else ⟨some s,.other⟩

/-- The columns that a character up to the no-break space adds. A carriage return and a line feed
are one line end. -/
def beforeBasic (r : Rest) (n : Nat) : Int × Rest :=
  if n = 0xA then (1,⟨none,.lineFeed⟩)
  else if n = 0xD ∧ r.unselected = .lineFeed then (0,empty)
  else (1,empty)

/-- The columns that a character adds in front of a text, and the longer text. -/
def before (r : Rest) (n : Nat) : Int × Rest :=
  if r.selector = some .asEmoji ∧ hasTwoStyles n then
    (if r.beginning.isJoined then 0 else 2,⟨none,.emoji .whole⟩)
  else if n ≤ 0xA0 then r.beforeBasic n
  else
    match Selector.ofCode? n with
    | some s => (0,r.select s)
    | none =>
      if r.selector = some .asText ∧ isNarrowAsText n then (1,empty)
      else if r.selector = some .wideQuote ∧ isQuote n then (2,empty)
      else
        let (count,b) := r.unselected.before n
        (count,⟨none,b⟩)

end Rest

/-- The columns of a text, and the text as what may follow further characters. -/
def measure : List Char → Int × Rest
  | [] => (0,.empty)
  | c::cs =>
    let (total,rest) := measure cs
    let (count,rest) := rest.before c.toNat
    (total+count,rest)

def width (cs : List Char) : Nat := (measure cs).1.toNat

end Text
end NumericWorkbench
