import OperatorChart.Pass
/-!
# Templating

One manifest becomes one template: all passes for its resource run in order. A report says of
each pass whether it changed the text.
-/

namespace OperatorChart

/-- A templater for the manifests of one project. An empty name switches off the substitutions
that depend on it. -/
structure Templater where
  project : Text
  deriving DecidableEq, Repr

/-- What each pass of a run did to the text, in order: its name and whether it changed
anything. -/
structure TemplateReport where
  passes : List (Text × Bool)
  deriving DecidableEq, Repr

namespace TemplateReport

def changed (report : TemplateReport) : List Text :=
  (report.passes.filter (·.2)).map (·.1)

def isUnchanged (report : TemplateReport) : Bool :=
  report.passes.all (!·.2)

end TemplateReport

namespace Templater

/-- The template of a manifest; empty for a resource that the chart does not render. -/
def apply (templater : Templater) (resource : Resource) (text : Text) :
    Except EditError Text :=
  Pass.runAll ⟨resource, templater.project⟩ (Pass.forResource resource) text

def applyWithReport (templater : Templater) (resource : Resource) (text : Text) :
    Except EditError (Text × TemplateReport) := do
  let steps ← Pass.steps ⟨resource, templater.project⟩ (Pass.forResource resource) text
  return ((steps.getLast?.map (·.after)).getD text, ⟨steps.map fun s => (s.pass, s.changed)⟩)

end Templater

end OperatorChart
