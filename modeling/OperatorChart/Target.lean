import OperatorChart.Path
import OperatorChart.Rendering
import OperatorChart.Text.LowerCase
import OperatorChart.Text.Quoted
/-!
# Targets

In a chart's directory each template has a file of its own, in a directory named after its kind.
A name that is no file name is refused, and so are two templates for one file.
-/

namespace OperatorChart

inductive TargetError
  /-- The name of a resource is no file name. -/
  | invalidFileName (resource : Resource)
  /-- Two templates have one file. -/
  | duplicate (resource : Resource)
  deriving DecidableEq, Repr

namespace TargetError

def message : TargetError → Text
  | invalidFileName resource =>
    "Cannot write ".toList ++ resource.display ++ ": invalid file name ".toList ++
      resource.name.quoted
  | duplicate resource => "Duplicate resource ".toList ++ resource.display

def help : TargetError → Text
  | invalidFileName _ => "Resource names must not contain path separators".toList
  | duplicate _ =>
    "Each kind/name pair may appear only once when writing to --output-dir".toList

end TargetError

def Resource.isFileName (name : Text) : Bool :=
  !name.isEmpty && name != ['.'] && name != ['.', '.'] && !name.contains '/' &&
    !name.contains '\\'

def templatesDirectory : Text :=
  "templates".toList

def Resource.targetPath (resource : Resource) : Except TargetError Text :=
  if isFileName resource.name then
    .ok (Path.append (Path.append templatesDirectory resource.kind.lowerCase)
      (resource.name ++ ".yaml".toList))
  else .error (.invalidFileName resource)

/-- A template and the path of its file in a chart's directory. -/
structure Target where
  path : Text
  text : Text
  deriving DecidableEq, Repr

/-- The targets of templates, no two of them with one reading; `seen` holds the readings of the
paths before. -/
def targetsFrom (seen : List (Bool × List PathStep)) :
    List Template → Except TargetError (List Target)
  | [] => .ok []
  | template :: rest => do
    let path ← template.resource.targetPath
    if seen.contains (Path.reading path) then .error (.duplicate template.resource)
    else return ⟨path, template.text⟩ :: (← targetsFrom (Path.reading path :: seen) rest)

def targetsOf (templates : List Template) : Except TargetError (List Target) :=
  targetsFrom [] templates

end OperatorChart
