import OperatorChart.Line
import OperatorChart.Resource
import OperatorChart.Yaml.Record
/-!
# Manifests

A manifest is a stream of documents between separator lines. It is cut at those lines only,
never at dashes inside a value; documents without content are dropped, and the others are
numbered from zero. A document says itself which resource it describes.
-/

namespace OperatorChart

inductive RequiredField
  | kind
  | apiVersion
  | metadataName
  deriving DecidableEq, Repr

inductive DescriptorError
  /-- It cannot be read. -/
  | malformed
  /-- A field is missing. -/
  | missingField (field : RequiredField)
  deriving DecidableEq, Repr

def RequiredField.text : RequiredField → Text
  | kind => "kind".toList
  | apiVersion => "apiVersion".toList
  | metadataName => "metadata.name".toList

def DescriptorError.message : DescriptorError → Text
  | malformed => "Failed to parse manifest".toList
  | missingField field => "Missing required field: ".toList ++ field.text

def RequiredField.require (field : RequiredField) : Option Text → Except DescriptorError Text
  | some text => .ok text
  | none => .error (.missingField field)

/-- The fields of a document that say which resource it describes, as far as they are there:
kind, API version, name and namespace. -/
def Resource.fields (text : Text) :
    Except Yaml.ReadError (Option Text × Option Text × Option Text × Option Text) := do
  let record ← Yaml.Record.parse text
  let metadata ← record.record "metadata".toList
  return (← record.text? "kind".toList, ← record.text? "apiVersion".toList,
    ← metadata.text? "name".toList, ← metadata.text? "namespace".toList)

/-- The resource that a document describes. Kind, API version and name must be there, and are
missed in this order. -/
def Resource.ofDocument (text : Text) : Except DescriptorError Resource :=
  match Resource.fields text with
  | .error _ => .error .malformed
  | .ok (kind, apiVersion, name, namespaceName) => do
    return ⟨← RequiredField.kind.require kind, ← RequiredField.apiVersion.require apiVersion,
      ← RequiredField.metadataName.require name, namespaceName.getD []⟩

structure ManifestDocument where
  /-- The number of documents with content before it. -/
  index : Nat
  content : Text
  deriving DecidableEq, Repr

structure InvalidDocument where
  index : Nat
  reason : DescriptorError
  deriving DecidableEq, Repr

def InvalidDocument.message (invalid : InvalidDocument) : Text :=
  "Invalid manifest document ".toList ++ Text.ofNat invalid.index ++ ": ".toList ++
    invalid.reason.message

namespace ManifestDocument

def resource (document : ManifestDocument) : Except InvalidDocument Resource :=
  (Resource.ofDocument document.content).mapError fun reason => ⟨document.index, reason⟩

end ManifestDocument

namespace Manifest

/-- Whether a line separates documents: three dashes at its start, and nothing or a space behind
them. -/
def isSeparator (line : Line) : Bool :=
  let line := line.trimEnd
  line == "---".toList || "--- ".toList.isPrefixOf line

def isIdle (line : Line) : Bool :=
  line.isBlank || line.isComment

/-- Whether a text has a line that is neither blank nor a comment. -/
def hasContent (text : Text) : Bool :=
  !text.lines.all isIdle

/-- The texts between separator lines, given the lines of a manifest. Each line but the last of
the manifest keeps its line break. -/
def sections : List Line → List Text
  | [] => [[]]
  | [line] => if isSeparator line then [[], []] else [line]
  | line :: rest =>
    if isSeparator line then [] :: sections rest
    else match sections rest with
      | [] => [line ++ ['\n']]
      | text :: texts => (line ++ '\n' :: text) :: texts

def documents (manifest : Text) : List ManifestDocument :=
  (((sections manifest.lines).filter hasContent).map Text.ensureNewline).zipIdx.map
    fun (content, index) => ⟨index, content⟩

end Manifest

end OperatorChart
