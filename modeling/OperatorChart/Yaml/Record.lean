import OperatorChart.Yaml.Node.Reader
/-!
# Records

A record is read from a mapping: the fields it knows must occur at most once, and all others are
passed over. A mapping that is not written has no fields.
-/

namespace OperatorChart.Yaml

inductive ReadError
  /-- It is not a document of the language. -/
  | malformed
  /-- It has another shape than the record. -/
  | mismatch
  deriving DecidableEq, Repr

/-- A mapping by the texts of its keys, in a document. -/
structure Record where
  document : Document
  fields : List (Text × Node)

namespace Document

/-- The text of a scalar, or of one behind an alias. -/
def text (document : Document) (node : Node) : Except ReadError Text :=
  match document.follow node with
  | some (.scalar _ _ _ text) => .ok text
  | _ => .error .mismatch

/-- The record in a node. Every key must be a scalar. -/
def record (document : Document) (node : Node) : Except ReadError Record :=
  match document.follow node with
  | some (.mapping _ entries) => do
    return ⟨document, ← entries.mapM fun (key, value) => return (← document.text key, value)⟩
  | some (.scalar _ _ plain text) =>
    if plain && text.isEmpty then .ok ⟨document, []⟩ else .error .mismatch
  | _ => .error .mismatch

end Document

/-- Whether a word stands for no value. -/
def isNullWord (word : Text) : Bool :=
  ["null".toList, "Null".toList, "NULL".toList, ['~']].contains word

def nullTag : Text :=
  "tag:yaml.org,2002:null".toList

namespace Record

def parse (text : Text) : Except ReadError Record :=
  match Document.parse? text with
  | some ⟨some root⟩ => (Document.mk (some root)).record root
  | some ⟨none⟩ => .ok ⟨⟨none⟩, []⟩
  | none => .error .malformed

def field? (r : Record) (name : Text) : Except ReadError (Option Node) :=
  match r.fields.filter (·.1 == name) with
  | [] => .ok none
  | [(_, value)] => .ok (some value)
  | _ => .error .mismatch

/-- The text of a field that must occur. -/
def text (r : Record) (name : Text) : Except ReadError Text := do
  match ← r.field? name with
  | some value => r.document.text value
  | none => .error .mismatch

/-- The text of a field that may be missing or stand for no value. A quoted scalar is always a
text, and so is a tagged one, unless its tag says that it stands for no value. -/
def text? (r : Record) (name : Text) : Except ReadError (Option Text) := do
  match ← r.field? name with
  | none => return none
  | some value =>
    match r.document.follow value with
    | some (.scalar _ tag plain text) =>
      if !plain then return some text
      else match tag with
        | none => return if text.isEmpty || isNullWord text then none else some text
        | some tag =>
          if tag != nullTag then return some text
          else if isNullWord text then return none
          else .error .mismatch
    | _ => .error .mismatch

/-- The record in a field; a missing one has no fields. -/
def record (r : Record) (name : Text) : Except ReadError Record := do
  match ← r.field? name with
  | some value => r.document.record value
  | none => return ⟨r.document, []⟩

end Record

end OperatorChart.Yaml
