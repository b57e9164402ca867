import OperatorChart.Values.Field
/-!
# The manager's image

The image of the manager and the policy by which it is pulled come from the chart's values.
-/

namespace OperatorChart.Values

/-- Where the image is looked up; also the marker of the edit's own output. -/
def imageRepository : Text :=
  ".Values.controllerManager.image.repository".toList

/-- The image under the key's own prefix, and the pull policy at the column of the manager's
keys. -/
def imageLines (start : Text) (column : Nat) : List Line :=
  [start ++ "image: \"".toList ++ (Directive.value imageRepository).render ++ ':' ::
      (Directive.value ".Values.controllerManager.image.tag".toList).render ++ ['"'],
    padding column ++ "imagePullPolicy: ".toList ++
      (Directive.value ".Values.controllerManager.image.pullPolicy".toList).render]

/-- Whether a line is a pull policy at `column`, not on the dash line of an item. -/
def isPullPolicy (column : Nat) (line : Line) : Bool :=
  !line.isItem && line.column == column && line.hasKey "imagePullPolicy".toList

/-- The lines with line `key` of the container replaced by `replacement`, and without the other
pull policies of the container. -/
def replaceImage (container : Container) (key : Nat) (replacement : List Line)
    (lines : List Line) : List Line :=
  lines.zipIdx.flatMap fun (line, i) =>
    if i = key then replacement
    else if container.start ≤ i && i < container.stop && isPullPolicy container.column line then []
    else [line]

def fillImage (lines : List Line) : Except EditError (List Line) :=
  match Container.manager? lines with
  | some container =>
    match container.key? lines "image".toList with
    | some key =>
      if Text.hasInfix imageRepository (lineAt lines key) then .ok lines
      else do
        let start ← keyPrefix (lineAt lines key)
        return replaceImage container key (imageLines start container.column) lines
    | none => .ok lines
  | none => .ok lines

end OperatorChart.Values
