import NumericWorkbench.Text.Columns
import NumericWorkbench.Text.Emoji
/-! Letters that are written as one sign, so that they take fewer columns than each on its own. Like
emoji, they are recognised from the end of the text. -/
namespace NumericWorkbench
namespace Text

/-- Marks that are not shown; between the parts of a ligature they change nothing. -/
def isHiddenMark (n : Nat) : Bool :=
  n = 0x34F || n = 0x17B4 || n = 0x17B5 || (0x180B ≤ n && n ≤ 0x180D) || n = 0x180F ||
    (0xFE00 ≤ n && n ≤ 0xFE0F) || (0xE0100 ≤ n && n ≤ 0xE01EF)

/-- Arabic letters in the joining group of alef. -/
def isAlef (n : Nat) : Bool :=
  n = 0x622 || n = 0x623 || n = 0x625 || n = 0x627 || (0x671 ≤ n && n ≤ 0x673) || n = 0x675 ||
    n = 0x773 || n = 0x774 || (0x870 ≤ n && n ≤ 0x882)

/-- Arabic letters in the joining group of lam. -/
def isLam (n : Nat) : Bool :=
  n = 0x644 || (0x6B5 ≤ n && n ≤ 0x6B8) || n = 0x76A || n = 0x8A6 || n = 0x8C7

/-- Khmer letters that can be written below another letter, after the sign U+17D2. -/
def isSubscript (n : Nat) : Bool :=
  (0x1780 ≤ n && n ≤ 0x1782) || (0x1784 ≤ n && n ≤ 0x1787) || (0x1789 ≤ n && n ≤ 0x178C) ||
    (0x178E ≤ n && n ≤ 0x1793) || (0x1795 ≤ n && n ≤ 0x1798) || (0x179B ≤ n && n ≤ 0x179D) ||
    n = 0x17A0 || n = 0x17A2 || n = 0x17A7 || n = 0x17AB || n = 0x17AC || n = 0x17AF

def isTifinaghConsonant (n : Nat) : Bool := (0x2D31 ≤ n && n ≤ 0x2D65) || n = 0x2D6F

/-- The end of a ligature, as far as it is read; `joined` tells whether a joiner stands in front
of it. -/
inductive Ligature where
  /-- Arabic lam and alef. -/
  | alef
  /-- Hebrew alef, joiner and lamed. -/
  | lamed (joined : Bool)
  /-- Khmer letters below others. -/
  | subscript
  /-- Buginese a, i, joiner and ya. -/
  | ya (joined : Bool)
  | iYa
  /-- Two Tifinagh consonants with a joiner of that script or the general one between them. -/
  | consonant (joined : Bool)
  | joinerConsonant
  /-- Two Lisu tone letters. -/
  | toneLetter
  /-- Old Turkic letters with a joiner between them. -/
  | orkhonI (joined : Bool)
  /-- Kirat Rai vowels that are composed of others. -/
  | vowelE
  | vowelAi
deriving Repr,DecidableEq

namespace Ligature

/-- The ligature behind a joiner. -/
def join : Ligature → Ligature
  | lamed _ => lamed true
  | ya _ => ya true
  | consonant _ => consonant true
  | orkhonI _ => orkhonI true
  | l => l

/-- The columns that the letter `n` adds in front of this end, and what the text then begins with,
if the letter belongs to the ligature. -/
def letter? : Ligature → Nat → Option (Int × Option Ligature)
  | alef,n =>
    if isLam n then some (0,none) else if isTransparent n then some (0,some alef) else none
  | lamed joined,n => if joined && n = 0x5D0 then some (0,none) else none
  | subscript,n => if n = 0x17D2 then some (-1,none) else none
  | ya joined,n => if joined && n = 0x1A17 then some (0,some iYa) else none
  | iYa,n => if n = 0x1A15 then some (0,none) else none
  | consonant joined,n =>
    if n = 0x2D7F then some (1,some joinerConsonant)
    else if joined && isTifinaghConsonant n then some (0,none)
    else none
  | joinerConsonant,n => if isTifinaghConsonant n then some (-1,none) else none
  | toneLetter,n => if 0xA4F8 ≤ n && n ≤ 0xA4FB then some (0,none) else none
  | orkhonI joined,n => if joined && n = 0x10C32 then some (0,none) else none
  | vowelE,n =>
    if n = 0x16D63 || n = 0x16D69 then some (0,none)
    else if n = 0x16D67 then some (0,some vowelAi)
    else if n = 0x16D68 then some (1,some vowelE)
    else none
  | vowelAi,n => if n = 0x16D63 then some (0,none) else none

/-- The same for any character. Joiners and hidden marks may stand anywhere in a ligature; in an
Arabic one, any character that does not interrupt the writing, but no joiner. -/
def before? (l : Ligature) (n : Nat) : Option (Int × Option Ligature) :=
  if l ≠ alef ∧ n = joiner then some (0,some l.join)
  else if l ≠ alef ∧ isHiddenMark n then some (0,some l)
  else l.letter? n

/-- The ligature that the single letter `n` can be the end of. -/
def single? (n : Nat) : Option Ligature :=
  if isAlef n then some alef
  else if n = 0x5DC then some (lamed false)
  else if isSubscript n then some subscript
  else if n = 0x1A10 then some (ya false)
  else if isTifinaghConsonant n then some (consonant false)
  else if n = 0xA4FC || n = 0xA4FD then some toneLetter
  else if n = 0x10C03 then some (orkhonI false)
  else if n = 0x16D67 then some vowelE
  else if n = 0x16D68 then some vowelAi
  else none

end Ligature
end Text
end NumericWorkbench
