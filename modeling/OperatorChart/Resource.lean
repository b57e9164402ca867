import OperatorChart.Text.Basic
/-!
# Resources

What a manifest says about the object it describes: the identity by which templating decides
what to do with it. A missing part is empty.
-/

namespace OperatorChart

structure Resource where
  kind : Text
  apiVersion : Text
  name : Text
  /-- Often empty in a manifest whose namespace is still to be filled in. -/
  namespaceName : Text
  deriving DecidableEq, Repr

namespace Resource

/-- The group of an API version: what stands before the first slash, and nothing without one. -/
def groupOf (apiVersion : Text) : Text :=
  match apiVersion.splitOnce? '/' with
  | some (group, _) => group
  | none => []

/-- The API group of a resource; core resources have an empty one. -/
def apiGroup (resource : Resource) : Text :=
  groupOf resource.apiVersion

/-- A resource as messages name it: its kind and its name. -/
def display (resource : Resource) : Text :=
  resource.kind ++ '/' :: resource.name

end Resource

end OperatorChart
