import OperatorChart.Text.Lines
/-!
# Lines of a manifest

What one line of a block-style manifest says by itself: how far it is indented, whether it
opens a sequence item, and which key it holds. Indentation is made of spaces and tabs only,
while all white space is trimmed from the content.
-/

namespace OperatorChart

def isIndentation (c : Char) : Bool :=
  c == ' ' || c == '\t'

/-- A value without the pair of quotes around it, if it has one. -/
def unquote (value : Text) : Text :=
  let within (quote : Char) : Option Text :=
    ((([quote] : Text).isPrefixOf? value).bind fun rest => ([quote] : Text).isSuffixOf? rest)
  ((within '"').or (within '\'')).getD value

namespace Line

/-- The spaces and tabs at the start of a line. -/
def leading (line : Line) : Text :=
  line.takeWhile isIndentation

/-- The width of the indentation; a space and a tab are one byte each. -/
def indent (line : Line) : Nat :=
  (leading line).length

def trimmed (line : Line) : Text :=
  line.trim

def isBlank (line : Line) : Bool :=
  (trimmed line).isEmpty

/-- Whether a line opens a sequence item: a dash that stands alone or before a space. -/
def isItem (line : Line) : Bool :=
  trimmed line == ['-'] || "- ".toList.isPrefixOf (trimmed line)

def isDirective (line : Line) : Bool :=
  "\x7b\x7b".toList.isPrefixOf (trimmed line)

def isComment (line : Line) : Bool :=
  "#".toList.isPrefixOf (trimmed line)

/-- The dash of an item with the white space after it; empty on any other line. -/
def marker (line : Line) : Text :=
  if isItem line then '-' :: ((trimmed line).drop 1).takeWhile Unicode.isWhiteSpace else []

def content (line : Line) : Text :=
  if isItem line then Text.trimStart ((trimmed line).drop 1) else trimmed line

/-- The column where the content behind the marker starts. For `- name: manager` indented by
six this is eight. -/
def column (line : Line) : Nat :=
  indent line + (marker line).byteLength

def isKey (line : Line) (key : Text) : Bool :=
  content line == key

/-- Whether the content is an entry with this key, whatever its value. -/
def hasKey (line : Line) (key : Text) : Bool :=
  match (content line).splitOnce? ':' with
  | some (name, _) => name == key
  | none => false

/-- Whether the content is an entry with this key and this value, quoted or not. -/
def isEntry (line : Line) (key value : Text) : Bool :=
  match (content line).splitOnce? ':' with
  | some (name, rest) => name == key && unquote rest.trim == value
  | none => false

theorem marker_append_content (line : Line) : marker line ++ content line = trimmed line := by
  unfold marker content
  split
  · rename_i h
    have hdash : trimmed line = '-' :: (trimmed line).drop 1 := by
      simp only [isItem, Bool.or_eq_true, beq_iff_eq, List.isPrefixOf_iff_prefix] at h
      rcases h with h | ⟨rest, h⟩
      · rw [h]; rfl
      · rw [← h]; rfl
    rw [List.cons_append, Text.trimStart, List.takeWhile_append_dropWhile, ← hdash]
  · rfl

end Line

/-- The line with a given number, counted from zero; past the end, an empty one. -/
def lineAt (lines : List Line) (i : Nat) : Line :=
  lines.getD i []

end OperatorChart
