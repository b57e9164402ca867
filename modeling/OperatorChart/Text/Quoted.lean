import OperatorChart.Text.Basic
import OperatorChart.Unicode.GraphemeExtend
import OperatorChart.Unicode.Unprintable
/-!
# Quoted texts

A text as messages show it: in double quotes, with a backslash in front of a quote and a
backslash, a short form for the common controls, and the code of every other character that
cannot be seen, or that would be drawn into the place of the character before it.
-/

namespace OperatorChart.Text

/-- Whether a character is a filler of Hangul: a letter that stands for a missing one and shows
nothing. -/
def isFiller (c : Char) : Bool :=
  c == '\u115f' || c == '\u1160' || c == '\u3164' || c == '\uffa0'

/-- Whether a character is a sound mark of halfwidth kana. It extends the character before it but
takes up a place of its own. -/
def isHalfwidthMark (c : Char) : Bool :=
  c == '\uff9e' || c == '\uff9f'

/-- Whether a character would not be seen as itself between quotes. -/
def isHidden (c : Char) : Bool :=
  Unicode.isUnprintable c || isFiller c || (Unicode.isGraphemeExtend c && !isHalfwidthMark c)

def quoteChar : Char → Text
  | '"' => ['\\', '"']
  | '\\' => ['\\', '\\']
  | '\t' => ['\\', 't']
  | '\r' => ['\\', 'r']
  | '\n' => ['\\', 'n']
  | '\x00' => ['\\', '0']
  | c =>
    if isHidden c then
      '\\' :: 'u' :: '\x7b' :: (Nat.toDigits 16 c.toNat ++ ['\x7d'])
    else [c]

def quoted (t : Text) : Text :=
  '"' :: (t.flatMap quoteChar ++ ['"'])

end OperatorChart.Text
