import OperatorChart.Line
/-!
# Blocks

The value of a key is the run of lines behind it that sit deeper than the key, or, for a
sequence, that are items at the key's own column. A block is such a run together with its key
line. It ends at the first blank line, at the first line indented less, and at the first
sibling; the end of the document ends it too.
-/

namespace OperatorChart

/-- How a block treats lines at its own column. -/
inductive BlockStyle
  /-- A mapping value: every line at the column is a sibling key. -/
  | mapping
  /-- A sequence value: items, directives and comments at the column belong to it. -/
  | sequence
  /-- A whole sequence item: everything deeper than its dash. -/
  | item
  deriving DecidableEq, Repr

namespace BlockStyle

/-- The column a block is measured against, given its key line. An item is measured against
its dash, a value against its key. -/
def column : BlockStyle → Line → Nat
  | item, line => line.indent
  | mapping, line => line.column
  | sequence, line => line.column

/-- Whether a line at the block's own column belongs to the block. -/
def keepsAtColumn : BlockStyle → Line → Bool
  | sequence, line => line.isItem || line.isDirective || line.isComment
  | mapping, _ => false
  | item, _ => false

/-- Whether a line continues a block measured against `column`. -/
def continues (style : BlockStyle) (column : Nat) (line : Line) : Bool :=
  !line.isBlank &&
    (column < line.indent || (line.indent == column && style.keepsAtColumn line))

/-- The lines at the start of `rest` that belong to a block measured against `column`. -/
def body (style : BlockStyle) (column : Nat) (rest : List Line) : List Line :=
  rest.takeWhile (style.continues column)

end BlockStyle

/-- The lines `start`, …, `stop - 1`: a key line and its value. -/
structure Block where
  /-- The number of the key line. -/
  start : Nat
  /-- The number of the first line after the value. -/
  stop : Nat
  /-- The column the value is measured against. -/
  column : Nat
  deriving DecidableEq, Repr

namespace Block

def locate (style : BlockStyle) (lines : List Line) (key : Nat) : Block :=
  let column := style.column (lineAt lines key)
  ⟨key, key + 1 + (style.body column (lines.drop (key + 1))).length, column⟩

def isEmpty (block : Block) : Bool :=
  block.stop == block.start + 1

def bodyOf (block : Block) (lines : List Line) : List Line :=
  (lines.take block.stop).drop (block.start + 1)

end Block

/-- The lines with the lines `start`, …, `stop - 1` replaced. -/
def splice (lines : List Line) (start stop : Nat) (replacement : List Line) : List Line :=
  lines.take start ++ replacement ++ lines.drop stop

end OperatorChart
