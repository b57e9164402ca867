import OperatorChart.Text.Basic
/-!
# Tokens

The tokens of a stream of documents. Collections in block style have no brackets of their own:
their start and end tokens come from the indentation, and the key token of a simple key is put
in front of it once the colon behind it is seen.
-/

namespace OperatorChart.Yaml

inductive Token
  | versionDirective (major minor : Nat)
  /-- Declares what a tag handle stands for. -/
  | tagDirective (handle start : Text)
  | documentStart
  | documentEnd
  | blockSequenceStart
  | blockMappingStart
  | blockEnd
  | flowSequenceStart
  | flowSequenceEnd
  | flowMappingStart
  | flowMappingEnd
  | blockEntry
  | flowEntry
  | key
  | value
  | aliasOf (name : Text)
  | anchor (name : Text)
  /-- A tag; the empty handle stands for a suffix that is the whole tag. -/
  | tag (handle suffix : Text)
  | scalar (plain : Bool) (text : Text)
  deriving DecidableEq, Repr

end OperatorChart.Yaml
