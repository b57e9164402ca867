import OperatorChart.Directive
/-!
# Blank lines next to guards

A run of blank lines goes away when it stands right behind the opening of a guard or right
before a closing line. The last line is never blank in this sense: it is the empty rest behind
the final line break, or the last content of a text without one.
-/

namespace OperatorChart.BlankRuns

def hasOpening (line : Line) : Bool :=
  Text.hasInfix "\x7b\x7b- if ".toList line

def hasClosing (line : Line) : Bool :=
  Text.hasInfix Directive.close.render line

/-- Whether the first line that is not blank holds the closing of a guard; the last line counts
as one that is not blank. -/
def closesNext : List Line → Bool
  | [] => false
  | [line] => hasClosing line
  | line :: rest => if line.isBlank then closesNext rest else hasClosing line

/-- The lines without the runs of blank lines next to guards. `opened` says whether the nearest
line above that is not blank opens a guard. -/
def collapseFrom (opened : Bool) : List Line → List Line
  | [] => []
  | [line] => [line]
  | line :: next :: rest =>
    if line.isBlank && (opened || closesNext (next :: rest)) then
      collapseFrom opened (next :: rest)
    else line :: collapseFrom (hasOpening line) (next :: rest)

def collapse (lines : List Line) : List Line :=
  collapseFrom false lines

end OperatorChart.BlankRuns
