import OperatorChart.Block
/-!
# Containers

A container is a sequence item that has a given name. The name may stand on the item's dash
line or on a later key of the item, since keys are sorted and `name` usually follows `image`.
-/

namespace OperatorChart

/-- The lines `start`, …, `stop - 1` of a sequence item. -/
structure Container where
  /-- The number of the item's dash line. -/
  start : Nat
  /-- The number of the first line after the item. -/
  stop : Nat
  /-- The column where the item's keys start. -/
  column : Nat
  deriving DecidableEq, Repr

namespace Container

/-- The dash line of the item that owns a key in line `i` at `column`: the nearest line above
that is indented less, when it opens an item whose keys start at that column and no blank line
stands between. -/
def owner? (lines : List Line) (i column : Nat) : Option Nat :=
  let stops (j : Nat) : Bool := (lineAt lines j).isBlank || (lineAt lines j).indent < column
  match (List.range i).reverse.find? stops with
  | some j =>
    let line := lineAt lines j
    if !line.isBlank && line.isItem && line.column == column then some j else none
  | none => none

/-- The dash line of the item that the entry in line `i` belongs to. -/
def itemOf? (lines : List Line) (i : Nat) : Option Nat :=
  if (lineAt lines i).isItem then some i else owner? lines i (lineAt lines i).indent

def ofItem (lines : List Line) (start : Nat) : Container :=
  ⟨start, (Block.locate .item lines start).stop, (lineAt lines start).column⟩

/-- The item of the first entry `name: <name>` that belongs to one. -/
def find? (lines : List Line) (name : Text) : Option Container :=
  ((List.range lines.length).findSome? fun i =>
    if (lineAt lines i).isEntry "name".toList name then itemOf? lines i else none).map
      (ofItem lines)

def key? (container : Container) (lines : List Line) (key : Text) : Option Nat :=
  (List.range' container.start (container.stop - container.start)).find? fun i =>
    (lineAt lines i).column == container.column && (lineAt lines i).hasKey key

def managerName : Text := "manager".toList

/-- The container that the chart's values configure. -/
def manager? (lines : List Line) : Option Container :=
  find? lines managerName

end Container

end OperatorChart
