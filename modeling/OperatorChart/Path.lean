import OperatorChart.Text.Lines
/-!
# Paths

A path is a text of segments between slashes. An empty segment and a single dot stay where they
are, two dots go to the parent, and everything else is the name of an entry. A path that starts
with a slash starts at the root.
-/

namespace OperatorChart

inductive PathStep
  | stay
  | parent
  | enter (name : Text)
  deriving DecidableEq, Repr

namespace PathStep

def ofSegment (segment : Text) : PathStep :=
  if segment = [] || segment = ['.'] then stay
  else if segment = ['.', '.'] then parent
  else enter segment

end PathStep

namespace Path

def isAbsolute (path : Text) : Bool :=
  path.head? == some '/'

def steps (path : Text) : List PathStep :=
  (path.pieces '/').map PathStep.ofSegment

/-- Where a path leads, as far as that can be said without a tree: whether it starts at the root,
and its steps without those that stay. Two paths with one reading lead to one place. -/
def reading (path : Text) : Bool × List PathStep :=
  (isAbsolute path, (steps path).filter (· ≠ .stay))

/-- A path read from the end of another one. An absolute path is read from the root instead, and
a slash comes between the two unless one is there. -/
def append (base path : Text) : Text :=
  if isAbsolute path then path
  else if base.isEmpty || base.getLast? = some '/' then base ++ path
  else base ++ '/' :: path

/-- The steps of a path up to its last one that leads elsewhere, without that one. -/
def stepsAbove (path : Text) : List PathStep :=
  ((steps path).reverse.dropWhile (· = .stay)).tail.reverse

/-- Whether the last segment of a path that is not empty is a single dot. -/
def endsInDot (path : Text) : Bool :=
  ((path.pieces '/').reverse.dropWhile List.isEmpty).head? == some ['.']

/-- The path of the directory that holds the entry at the end of a path: the segments before the
last one, as far as they lead somewhere. -/
def directory (path : Text) : Text :=
  let above := ((path.pieces '/').dropLast.reverse.dropWhile (PathStep.ofSegment · = .stay)).reverse
  if above.isEmpty && isAbsolute path then ['/'] else Text.join '/' above

end Path

end OperatorChart
