import OperatorChart.Project
import OperatorChart.Target
/-!
# Failures

A run fails for one of four kinds of reason: the project or its configuration cannot be used, the
manifest cannot be used, something cannot be read or written, or an edit breaks down. The
first two reject the run: they are found before anything is written.
-/

namespace OperatorChart

inductive ConfigFault
  | missing
  | unreadable
  | invalid (error : ConfigError)
  deriving DecidableEq, Repr

def ConfigFault.message (path : Text) : ConfigFault → Text
  | missing => "Config file not found: ".toList ++ path
  | unreadable => "IO error".toList
  | invalid error => error.message

inductive Failure
  | noProjectName
  | projectName (invalid : InvalidProjectName)
  | config (path : Text) (fault : ConfigFault)
  | inputMissing (path : Text)
  | noDocuments (path : Text)
  | target (error : TargetError)
  | standardInputUnreadable
  | inputUnreadable (path : Text)
  | outputDirectory (path : Text)
  /-- The directory for a template cannot be made. -/
  | templateDirectory
  | unwritten (path : Text)
  | edit (error : EditError)
  deriving DecidableEq, Repr

namespace Failure

def configText : Text → Text :=
  ("Config error: ".toList ++ ·)

def inputText : Text → Text :=
  ("Input error: ".toList ++ ·)

def message : Failure → Text
  | noProjectName => configText "No project name given".toList
  | projectName invalid => configText invalid.message
  | config path fault => configText (path ++ ": ".toList ++ fault.message path)
  | inputMissing path => inputText ("Input not found: ".toList ++ path)
  | noDocuments path => inputText ("No documents found in ".toList ++ path)
  | target error => inputText error.message
  | standardInputUnreadable => "Failed to read manifest from stdin".toList
  | inputUnreadable path => "Failed to read ".toList ++ path
  | outputDirectory path => "Failed to create output directory: ".toList ++ path
  | templateDirectory => "IO error".toList
  | unwritten path => "Failed to write ".toList ++ path
  | edit (.columnInsideCharacter line column) =>
    "Column ".toList ++ Text.ofNat column ++ " is inside a character of ".toList ++ line.quoted

def help? : Failure → Option Text
  | noProjectName =>
    some "Pass --project-name <NAME> or --config <FILE> with a projectName entry".toList
  | inputMissing _ => some "Use - to read the manifest from stdin".toList
  | noDocuments _ => some "Pass the output of `kustomize build config/default`".toList
  | target error => some error.help
  | _ => none

def isConfigError : Failure → Bool
  | noProjectName | projectName _ | config _ _ => true
  | _ => false

def isInputError : Failure → Bool
  | inputMissing _ | noDocuments _ | target _ => true
  | _ => false

def isRejection (failure : Failure) : Bool :=
  failure.isConfigError || failure.isInputError

def exitCode : Failure → Nat
  | edit _ => 101
  | failure => if failure.isConfigError then 3 else if failure.isInputError then 2 else 1

end Failure

end OperatorChart
