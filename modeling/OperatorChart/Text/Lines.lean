import OperatorChart.Text.Basic
/-!
# Lines of a text

A text is cut at a separator into one piece more than it has separators; its lines are the
pieces between line breaks, so a text that ends with a line break has an empty last line. Main
statement: joining the pieces gives the text back, so an operation on lines that keeps all of
them keeps the text.
-/

namespace OperatorChart

/-- A line of a text, without its line break. -/
abbrev Line := Text

namespace Text

def pieces (separator : Char) : Text → List Text
  | [] => [[]]
  | c :: t =>
    if c = separator then [] :: pieces separator t
    else match pieces separator t with
      | [] => [[c]]
      | piece :: rest => (c :: piece) :: rest

def join (separator : Char) : List Text → Text
  | [] => []
  | [piece] => piece
  | piece :: rest => piece ++ separator :: join separator rest

@[simp] theorem pieces_ne_nil (separator : Char) (t : Text) : pieces separator t ≠ [] := by
  induction t with
  | nil => simp [pieces]
  | cons c t ih =>
    unfold pieces
    split
    · simp
    · split <;> simp

theorem join_cons {rest : List Text} (separator : Char) (piece : Text) (h : rest ≠ []) :
    join separator (piece :: rest) = piece ++ separator :: join separator rest := by
  cases rest with
  | nil => exact absurd rfl h
  | cons => rfl

@[simp] theorem join_pieces (separator : Char) (t : Text) :
    join separator (pieces separator t) = t := by
  induction t with
  | nil => rfl
  | cons c t ih =>
    unfold pieces
    split
    · rename_i h
      rw [join_cons _ _ (pieces_ne_nil separator t), ih, h]
      rfl
    · split
      · rename_i h
        exact absurd h (pieces_ne_nil separator t)
      · rename_i piece rest h
        rw [h] at ih
        cases rest with
        | nil => simpa [join] using ih
        | cons => simpa [join] using ih

def lines (t : Text) : List Line :=
  pieces '\n' t

def ofLines (ls : List Line) : Text :=
  join '\n' ls

@[simp] theorem lines_ne_nil (t : Text) : lines t ≠ [] :=
  pieces_ne_nil '\n' t

@[simp] theorem ofLines_lines (t : Text) : ofLines (lines t) = t :=
  join_pieces '\n' t

/-- The text before the first line break. -/
def firstLine (t : Text) : Line :=
  t.takeWhile (· != '\n')

/-- The text with a line break at its end, added only if it has none. -/
def ensureNewline (t : Text) : Text :=
  if t.getLast? = some '\n' then t else t ++ ['\n']

/-- The text with its lines replaced by what `f` makes of them. -/
def overLines (f : List Line → List Line) (t : Text) : Text :=
  ofLines (f (lines t))

theorem overLines_eq_self {f : List Line → List Line} {t : Text} (h : f (lines t) = lines t) :
    overLines f t = t := by
  rw [overLines, h, ofLines_lines]

end Text

end OperatorChart
