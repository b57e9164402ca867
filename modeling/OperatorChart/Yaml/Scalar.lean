import OperatorChart.Yaml.Source
/-!
# Scalars

The text that a scalar stands for, in its plain, quoted and block form. Inside a plain or quoted
scalar a line break folds: one break counts as a space, more of them as all but the first. A
block scalar keeps its lines and takes away their indentation.
-/

namespace OperatorChart.Yaml

open Source

/-! ## Gaps -/

/-- The blanks and the line breaks in a gap. Blanks behind a line break are left out. -/
structure Gap where
  blanks : Text
  breaks : Text

/-- What a run of line breaks between two parts of a scalar stands for. -/
def foldBreaks : Text → Text
  | ['\n'] => [' ']
  | '\n' :: rest => rest
  | breaks => breaks

def Gap.fold (gap : Gap) : Text :=
  if gap.breaks.isEmpty then gap.blanks else foldBreaks gap.breaks

/-- The gap at the start of a source and the rest behind it. `broken` says whether a line break
came before; from then on no tab may stand left of column `limit`. -/
def readGap (limit : Nat) (broken : Bool) : Source → Option (Gap × Source)
  | [] => some (⟨[], []⟩, [])
  | g :: rest =>
    if isBlank g.char then
      if broken && g.char == '\t' && g.column < limit then none
      else (readGap limit broken rest).map fun (gap, after) =>
        (if broken then gap else { gap with blanks := g.char :: gap.blanks }, after)
    else if isBreak g.char then
      (readGap limit true rest).map fun (gap, after) =>
        ({ gap with breaks := g.char :: gap.breaks }, after)
    else some (⟨[], []⟩, g :: rest)

/-! ## Plain scalars -/

/-- The part of a plain scalar up to the next gap or indicator. Inside brackets a colon may not
be followed by an indicator of the collection. -/
def plainPart (inFlow : Bool) : Source → Option (Text × Source)
  | [] => some ([], [])
  | g :: rest =>
    if isBlank g.char || isBreak g.char then some ([], g :: rest)
    else if inFlow && g.char == ':' && startsIn ",?[]\x7b\x7d".toList rest then none
    else if (g.char == ':' && endsWord rest) ||
        (inFlow && ",[]\x7b\x7d".toList.contains g.char) then some ([], g :: rest)
    else (plainPart inFlow rest).map fun (part, after) => (g.char :: part, after)

/-- The text of a plain scalar, whether a line break follows its last part, and the rest behind
the gap there. `pending` is what the gap before stands for; it counts only when a part follows.
Lines of the scalar are indented at least to `indent`. -/
def readPlain (inFlow : Bool) (indent : Nat) :
    Nat → Text → Bool → Source → Option (Text × Bool × Source)
  | 0, _, _, _ => none
  | fuel + 1, pending, broken, s =>
    if s.isDocumentMarker || s.starts '#' then some ([], broken, s)
    else do
      let (part, rest) ← plainPart inFlow s
      if part.isEmpty then return ([], broken, rest)
      if !rest.endsWord then return (pending ++ part, false, rest)
      let (gap, after) ← readGap indent false rest
      let broken := !gap.breaks.isEmpty
      let leavesBlock := match after with
        | [] => true
        | g :: _ => !inFlow && g.column < indent
      if leavesBlock then return (pending ++ part, broken, after)
      let (text, broken, after) ← readPlain inFlow indent fuel gap.fold broken after
      return (pending ++ part ++ text, broken, after)

/-! ## Quoted scalars -/

inductive Escape
  /-- This character. -/
  | char (c : Char)
  /-- The character with the code in the next so many hexadecimal digits. -/
  | code (digits : Nat)

def escape? : Char → Option Escape
  | '0' => some (.char '\x00')
  | 'a' => some (.char '\x07')
  | 'b' => some (.char '\x08')
  | 't' => some (.char '\t')
  | '\t' => some (.char '\t')
  | 'n' => some (.char '\n')
  | 'v' => some (.char '\x0b')
  | 'f' => some (.char '\x0c')
  | 'r' => some (.char '\r')
  | 'e' => some (.char '\x1b')
  | ' ' => some (.char ' ')
  | '"' => some (.char '"')
  | '/' => some (.char '/')
  | '\\' => some (.char '\\')
  | 'N' => some (.char '\u0085')
  | '_' => some (.char '\u00a0')
  | 'L' => some (.char '\u2028')
  | 'P' => some (.char '\u2029')
  | 'x' => some (.code 2)
  | 'u' => some (.code 4)
  | 'U' => some (.code 8)
  | _ => none

/-- The value of hexadecimal digits, the most significant first. -/
def hexValue? (digits : Text) : Option Nat :=
  digits.foldlM (fun value c => (hexDigit? c).map (value * 16 + ·)) 0

/-- The character whose code has exactly so many hexadecimal digits here. -/
def codeChar? (digits : Nat) (s : Source) : Option Char := do
  let code := Source.text (s.take digits)
  if code.length < digits then none
  let value ← hexValue? code
  if value.isValidChar then some (Char.ofNat value) else none

/-- The part of a quoted scalar up to the next gap or the closing quote, and whether it ends with
an escaped line break, which is taken along. `skip` counts characters of an escape that are still
to be passed over. -/
def quotedPart (double : Bool) : Nat → Source → Option (Text × Bool × Source)
  | _, [] => some ([], false, [])
  | skip + 1, _ :: rest => quotedPart double skip rest
  | 0, g :: rest =>
    let push (c : Char) (r : Option (Text × Bool × Source)) := r.map fun (t, b, s) => (c :: t, b, s)
    if isBlank g.char || isBreak g.char then some ([], false, g :: rest)
    else if !double && g.char == '\'' then
      if starts '\'' rest then push '\'' (quotedPart double 1 rest)
      else some ([], false, g :: rest)
    else if double && g.char == '"' then some ([], false, g :: rest)
    else if double && g.char == '\\' then
      match rest with
      | [] => none
      | h :: after =>
        if isBreak h.char then some ([], true, after)
        else match escape? h.char with
          | some (.char c) => push c (quotedPart double 1 rest)
          | some (.code digits) =>
            match codeChar? digits after with
            | some c => push c (quotedPart double (digits + 1) rest)
            | none => none
          | none => none
    else push g.char (quotedPart double 0 rest)

/-- The text of a quoted scalar and the rest behind its closing quote. No document may start or
end inside it. -/
def readQuoted (double : Bool) : Nat → Source → Option (Text × Source)
  | 0, _ => none
  | fuel + 1, s =>
    if s.isEmpty || s.isDocumentMarker then none
    else do
      let (part, escaped, rest) ← quotedPart double 0 s
      if rest.starts (if double then '"' else '\'') then return (part, rest.drop 1)
      let (gap, after) ← readGap 0 escaped rest
      let (text, after) ← readQuoted double fuel after
      return (part ++ (if escaped then gap.breaks else gap.fold) ++ text, after)

/-! ## Block scalars -/

/-- What becomes of the line breaks at the end of a block scalar. -/
inductive Chomping
  /-- None is kept. -/
  | strip
  /-- One is kept. -/
  | clip
  /-- All are kept. -/
  | keep
  deriving DecidableEq

def readChomping : Source → Option (Chomping × Source)
  | g :: rest =>
    if g.char == '+' then some (.keep, rest)
    else if g.char == '-' then some (.strip, rest)
    else none
  | [] => none

/-- The digit for an indentation, when one comes next; zero stands for none. A written zero is
not allowed. -/
def readIncrement : Source → Option (Nat × Source)
  | g :: rest =>
    if g.char == '0' then none
    else if '1' ≤ g.char && g.char ≤ '9' then some (g.char.toNat - 48, rest)
    else some (0, g :: rest)
  | [] => some (0, [])

/-- The way of chomping, the indentation (zero for one that is to be found out), and the rest
from the first line of the scalar on. Sign and digit may stand in either order. -/
def readBlockHeader (s : Source) : Option (Chomping × Nat × Source) := do
  match readChomping s with
  | some (chomping, s) =>
    let (increment, s) ← readIncrement s
    return (chomping, increment, ← s.endLine?)
  | none =>
    let (increment, s) ← readIncrement s
    let (chomping, s) :=
      if increment = 0 then (.clip, s) else (readChomping s).getD (.clip, s)
    return (chomping, increment, ← s.endLine?)

/-- The line breaks before the next line with content, the column of the deepest line among them
and that line, and the rest behind its indentation. Indentation goes up to `indent`, or as far as
there are spaces when `indent` is zero; no tab may stand in it. -/
def readBlockBreaks (indent : Nat) : Nat → Source → Option (Text × Nat × Source)
  | deepest, [] => some ([], deepest, [])
  | deepest, g :: rest =>
    let inside := indent == 0 || g.column < indent
    if inside && g.char == ' ' then readBlockBreaks indent deepest rest
    else if inside && g.char == '\t' then none
    else
      let deepest := max deepest g.column
      if isBreak g.char then
        (readBlockBreaks indent deepest rest).map fun (t, d, s) => (g.char :: t, d, s)
      else some ([], deepest, g :: rest)

/-- The lines of a block scalar at column `indent`: the text up to the last of them, the line
break behind it, the further line breaks, and the rest. `first` is the line break before the next
line and `further` are those behind it. In a folded scalar the break between two lines that do
not start with a blank folds; `blankLine` says whether the line before starts with one. -/
def readBlockLines (folded : Bool) (indent : Nat) :
    Nat → Text → Text → Bool → Source → Option (Text × Text × Text × Source)
  | 0, _, _, _, _ => none
  | _ + 1, first, further, _, [] => some ([], first, further, [])
  | fuel + 1, first, further, blankLine, g :: rest =>
    if g.column != indent then some ([], first, further, g :: rest)
    else do
      let folds := folded && first == ['\n'] && !blankLine && !isBlank g.char
      let gap := if folds then (if further.isEmpty then [' '] else further) else first ++ further
      let line := (g :: rest).takeWhile (!isBreak ·.char)
      let afterLine := (g :: rest).dropWhile (!isBreak ·.char)
      let (breaks, _, after) ← readBlockBreaks indent 0 (afterLine.drop 1)
      let (text, first, further, after) ← readBlockLines folded indent fuel
        (Source.text (afterLine.take 1)) breaks (isBlank g.char) after
      return (gap ++ Source.text line ++ text, first, further, after)

/-- The text of a block scalar of at most `size` lines and the rest behind it. Its lines are
indented at least to `floor`. -/
def readBlock (folded : Bool) (floor size : Nat) (s : Source) : Option (Text × Source) := do
  let (chomping, increment, s) ← readBlockHeader s
  let given := if increment = 0 then 0 else (floor - 1) + increment
  let (breaks, deepest, s) ← readBlockBreaks given 0 s
  let indent := if given = 0 then max (max deepest floor) 1 else given
  let (text, first, further, s) ← readBlockLines folded indent size [] breaks false s
  return (text ++ (if chomping = .strip then [] else first) ++
    (if chomping = .keep then further else []), s)

end OperatorChart.Yaml
