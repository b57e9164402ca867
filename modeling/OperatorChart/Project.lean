import OperatorChart.Templater
import OperatorChart.Text.Quoted
import OperatorChart.Yaml.Record
/-!
# Projects

The name of a project is the part of every resource's name that the build tool puts in front. It
comes from the command line or from a configuration file, and must be a single word.
-/

namespace OperatorChart

inductive ProjectNameFault
  | blank
  | whiteSpace
  deriving DecidableEq, Repr

def ProjectNameFault.text : ProjectNameFault → Text
  | blank => "must not be empty".toList
  | whiteSpace => "must not contain whitespace".toList

structure InvalidProjectName where
  name : Text
  fault : ProjectNameFault
  deriving DecidableEq, Repr

def InvalidProjectName.message (invalid : InvalidProjectName) : Text :=
  "Invalid project name ".toList ++ invalid.name.quoted ++ ": ".toList ++ invalid.fault.text

inductive ConfigError
  /-- It cannot be read as a configuration. -/
  | malformed
  | invalidProjectName (invalid : InvalidProjectName)
  deriving DecidableEq, Repr

def ConfigError.message : ConfigError → Text
  | malformed => "Failed to parse templater config".toList
  | invalidProjectName invalid => invalid.message

namespace Templater

/-- A templater for a project with this name, which must be a single word. -/
def ofProject (name : Text) : Except InvalidProjectName Templater :=
  if name.isBlank then .error ⟨name, .blank⟩
  else if name.any Unicode.isWhiteSpace then .error ⟨name, .whiteSpace⟩
  else .ok ⟨name⟩

def ofConfig (text : Text) : Except ConfigError Templater :=
  match (Yaml.Record.parse text).bind (·.text "projectName".toList) with
  | .error _ => .error .malformed
  | .ok name => (ofProject name).mapError .invalidProjectName

end Templater

end OperatorChart
