import OperatorChart.Text.Basic
/-!
# Sources

A source is a text whose characters know their place: the line, the column, which counts
characters, and the offset in the line, which counts bytes. Line breaks are brought to one form
first: a carriage return, with or without a line feed behind it, and U+0085 all become a line
feed, while U+2028 and U+2029 stay themselves.
-/

namespace OperatorChart.Yaml

/-- A character and its place. A line break belongs to the line that it ends. -/
structure Glyph where
  char : Char
  line : Nat
  /-- The number of characters before it in its line. -/
  column : Nat
  /-- The number of bytes before it in its line. -/
  offset : Nat
  deriving DecidableEq, Repr

abbrev Source := List Glyph

def isAllowed (c : Char) : Bool :=
  let code := c.toNat
  code == 9 || code == 10 || code == 13 || (0x20 ≤ code && code ≤ 0x7E) || code == 0x85 ||
    (0xA0 ≤ code && code ≤ 0xFFFD) || 0x10000 ≤ code

/-- Whether a character, in a source with one form of line breaks, ends a line. -/
def isBreak (c : Char) : Bool :=
  c == '\n' || c == '\u2028' || c == '\u2029'

def isBlank (c : Char) : Bool :=
  c == ' ' || c == '\t'

/-- Whether a character may stand in the name of an anchor, a directive or a tag handle. -/
def isWordChar (c : Char) : Bool :=
  c.isAlphanum || c == '_' || c == '-'

def hexDigit? (c : Char) : Option Nat :=
  if '0' ≤ c && c ≤ '9' then some (c.toNat - 48)
  else if 'a' ≤ c && c ≤ 'f' then some (c.toNat - 87)
  else if 'A' ≤ c && c ≤ 'F' then some (c.toNat - 55)
  else none

def unifyBreaks : Text → Text
  | [] => []
  | '\r' :: '\n' :: t => '\n' :: unifyBreaks t
  | '\r' :: t => '\n' :: unifyBreaks t
  | '\u0085' :: t => '\n' :: unifyBreaks t
  | c :: t => c :: unifyBreaks t

/-- The characters of a text with their places, the first at the given one. -/
def place (line column offset : Nat) : Text → Source
  | [] => []
  | c :: t =>
    ⟨c, line, column, offset⟩ ::
      (if isBreak c then place (line + 1) 0 0 t
      else place line (column + 1) (offset + c.utf8Size) t)

namespace Source

/-- The source of a text, unless a character in it is not allowed. -/
def ofText? (t : Text) : Option Source :=
  if t.all isAllowed then some (place 0 0 0 (unifyBreaks t)) else none

def text (s : Source) : Text :=
  s.map Glyph.char

def starts (c : Char) : Source → Bool
  | [] => false
  | g :: _ => g.char == c

def startsIn (cs : Text) : Source → Bool
  | [] => false
  | g :: _ => cs.contains g.char

/-- Whether a blank, a line break or the end comes next. -/
def endsWord : Source → Bool
  | [] => true
  | g :: _ => isBlank g.char || isBreak g.char

def skipBlanks (s : Source) : Source :=
  s.dropWhile (isBlank ·.char)

def skipLine (s : Source) : Source :=
  s.dropWhile (!isBreak ·.char)

/-- The rest of a source behind blanks, a comment, and the line break after them; nothing else
may stand on the line. -/
def endLine? (s : Source) : Option Source :=
  let s := s.skipBlanks
  let s := if s.starts '#' then s.skipLine else s
  match s with
  | [] => some []
  | g :: rest => if isBreak g.char then some rest else none

/-- Whether a line starts here with three times `c` and nothing else attached. -/
def isMarker (c : Char) : Source → Bool
  | g₁ :: g₂ :: g₃ :: rest =>
    g₁.column == 0 && g₁.char == c && g₂.char == c && g₃.char == c && endsWord rest
  | _ => false

def isDocumentMarker (s : Source) : Bool :=
  s.isMarker '-' || s.isMarker '.'

end Source

end OperatorChart.Yaml
