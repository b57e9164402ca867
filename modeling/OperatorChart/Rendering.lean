import OperatorChart.Manifest
import OperatorChart.Templater
/-!
# Rendering a manifest

Every document of a manifest ends in one of three ways: it is skipped because it describes no
resource, it is left out because nothing of it is rendered, or it becomes a template.
-/

namespace OperatorChart

inductive DocumentFate
  /-- It describes no resource. -/
  | skipped (reason : InvalidDocument)
  /-- Nothing of it is rendered. -/
  | elided (resource : Resource)
  | templated (resource : Resource) (template : Text)
  deriving DecidableEq, Repr

structure Summary where
  templated : Nat
  elided : Nat
  skipped : Nat
  deriving DecidableEq, Repr

def Summary.message (summary : Summary) : Text :=
  "kubechart ".toList ++ Text.ofNat summary.templated ++ " templated, ".toList ++
    Text.ofNat summary.elided ++ " elided, ".toList ++
    Text.ofNat summary.skipped ++ " skipped".toList

structure Template where
  resource : Resource
  text : Text
  deriving DecidableEq, Repr

namespace DocumentFate

def template? : DocumentFate → Option Template
  | templated resource text => some ⟨resource, text⟩
  | _ => none

def isElided : DocumentFate → Bool
  | elided _ => true
  | _ => false

def isSkipped : DocumentFate → Bool
  | skipped _ => true
  | _ => false

end DocumentFate

namespace Templater

def fate (templater : Templater) (document : ManifestDocument) :
    Except EditError DocumentFate :=
  match document.resource with
  | .error reason => .ok (.skipped reason)
  | .ok resource => do
    let template ← templater.apply resource document.content
    return if template.isBlank then .elided resource else .templated resource template

/-- What becomes of the documents of a manifest, in order. -/
def fates (templater : Templater) : List ManifestDocument → Except EditError (List DocumentFate)
  | [] => .ok []
  | document :: rest => do return (← templater.fate document) :: (← templater.fates rest)

end Templater

def templatesOf (fates : List DocumentFate) : List Template :=
  fates.filterMap DocumentFate.template?

def Summary.of (fates : List DocumentFate) : Summary :=
  ⟨(templatesOf fates).length, fates.countP (·.isElided), fates.countP (·.isSkipped)⟩

/-- A stream of templates, with separator lines between them. -/
def streamOf : List Template → Text
  | [] => []
  | [template] => template.text
  | template :: rest => template.text ++ "---\n".toList ++ streamOf rest

end OperatorChart
