import OperatorChart.Yaml.Scalar
import OperatorChart.Yaml.Token.Tag
/-!
# Reading tokens

A lexer walks a source once. It keeps the columns of the open block collections and, for each
level of brackets, the place where a simple key may have started: only the colon behind a node
shows that the node was a key, and it must come on the same line and within 1024 bytes.
-/

namespace OperatorChart.Yaml

open Source

/-- A place where a simple key may have started. -/
structure KeyCandidate where
  /-- The number of tokens before it. -/
  position : Nat
  line : Nat
  column : Nat
  /-- The number of bytes before it in its line. -/
  offset : Nat
  /-- Whether nothing but a key can stand there. -/
  required : Bool
  deriving Repr

structure Lexer where
  rest : Source
  /-- The tokens so far. -/
  tokens : Array Token
  /-- The columns of the open block collections, innermost first. -/
  indents : List Nat
  /-- The candidate outside of all brackets or inside the innermost ones. -/
  candidate : Option KeyCandidate
  /-- The candidates around the brackets that are open, innermost first. -/
  outer : List (Option KeyCandidate)
  /-- Whether a simple key may start here. -/
  keyAllowed : Bool

namespace Lexer

def start (s : Source) : Lexer :=
  ⟨s, #[], [], none, [], true⟩

/-- Whether brackets are open. -/
def inFlow (l : Lexer) : Bool :=
  !l.outer.isEmpty

/-- The least column of what belongs to the innermost block collection. -/
def floor (l : Lexer) : Nat :=
  match l.indents with
  | [] => 0
  | column :: _ => column + 1

def push (l : Lexer) (token : Token) : Lexer :=
  { l with tokens := l.tokens.push token }

/-! ## Blanks and comments -/

/-- The rest of a source behind blanks, comments and line breaks, and whether a simple key may
start there. Outside of brackets a tab is a blank only where no key may start, and a line break
lets one start. A byte order mark at the start of a line counts as a blank. -/
def skipTrivia (inFlow : Bool) : Bool → Bool → Source → Bool × Source
  | keyAllowed, _, [] => (keyAllowed, [])
  | keyAllowed, inComment, g :: rest =>
    if isBreak g.char then skipTrivia inFlow (keyAllowed || !inFlow) false rest
    else if inComment then skipTrivia inFlow keyAllowed true rest
    else if g.char == ' ' || (g.char == '\t' && (inFlow || !keyAllowed)) ||
        (g.char == '\ufeff' && g.column == 0) then
      skipTrivia inFlow keyAllowed false rest
    else if g.char == '#' then skipTrivia inFlow keyAllowed true rest
    else (keyAllowed, g :: rest)

def atToken (l : Lexer) : Lexer :=
  let (keyAllowed, rest) := skipTrivia l.inFlow l.keyAllowed false l.rest
  { l with rest, keyAllowed }

/-! ## Simple keys -/

/-- A candidate as it stands at a later place: too far away it is none, and failing to be a key
where one is required is an error. -/
def refresh (g : Glyph) : Option KeyCandidate → Option (Option KeyCandidate)
  | none => some none
  | some c =>
    if c.line < g.line || c.offset + 1024 < g.offset then
      if c.required then none else some none
    else some (some c)

def dropStale (l : Lexer) (g : Glyph) : Option Lexer := do
  return { l with candidate := ← refresh g l.candidate, outer := ← l.outer.mapM (refresh g) }

/-- The lexer without a candidate, which must not be a required one. -/
def dropCandidate (l : Lexer) : Option Lexer :=
  match l.candidate with
  | some c => if c.required then none else some { l with candidate := none }
  | none => some l

/-- The lexer with a candidate here, if a simple key may start here. -/
def addCandidate (l : Lexer) (g : Glyph) : Option Lexer := do
  if !l.keyAllowed then return l
  let required := !l.inFlow && l.indents.head? == some g.column
  return { ← l.dropCandidate with
    candidate := some ⟨l.tokens.size, g.line, g.column, g.offset, required⟩ }

/-! ## Block collections -/

/-- The lexer with a block collection opened at a column, unless it is open already; its start
token comes after the first `position` tokens. -/
def openBlock (l : Lexer) (column position : Nat) (token : Token) : Lexer :=
  if l.inFlow || column < l.floor then l
  else { l with
    indents := column :: l.indents, tokens := l.tokens.insertIdxIfInBounds position token }

/-- The lexer with the block collections closed that are indented deeper than a column, given
the columns of the open ones. -/
def closeFrom (column : Nat) : List Nat → Lexer → Lexer
  | [], l => { l with indents := [] }
  | indent :: indents, l =>
    if column < indent then closeFrom column indents (l.push .blockEnd)
    else { l with indents := indent :: indents }

/-- The lexer with the block collections closed that are indented deeper than a column. -/
def closeBlocks (l : Lexer) (column : Nat) : Lexer :=
  if l.inFlow then l else closeFrom column l.indents l

def closeAll (l : Lexer) : Lexer :=
  if l.inFlow then l
  else { l with
    indents := [], tokens := l.tokens ++ Array.replicate l.indents.length Token.blockEnd }

/-! ## Tokens by their first character -/

def readDirectiveToken (l : Lexer) : Option Lexer := do
  let l ← l.closeAll.dropCandidate
  let (token, rest) ← readDirective (l.rest.drop 1)
  return { l.push token with rest, keyAllowed := false }

def readDocumentMarker (l : Lexer) (token : Token) : Option Lexer := do
  let l ← l.closeAll.dropCandidate
  return { l.push token with rest := l.rest.drop 3, keyAllowed := false }

def openFlow (l : Lexer) (g : Glyph) (token : Token) : Option Lexer := do
  let l ← l.addCandidate g
  return { l.push token with
    rest := l.rest.drop 1, keyAllowed := true, candidate := none, outer := l.candidate :: l.outer }

def closeFlow (l : Lexer) (token : Token) : Option Lexer := do
  let l ← l.dropCandidate
  let l := match l.outer with
    | [] => l
    | candidate :: outer => { l with candidate, outer }
  return { l.push token with rest := l.rest.drop 1, keyAllowed := false }

def readFlowEntry (l : Lexer) : Option Lexer := do
  let l ← l.dropCandidate
  return { l.push .flowEntry with rest := l.rest.drop 1, keyAllowed := true }

def readBlockEntry (l : Lexer) (g : Glyph) : Option Lexer := do
  if !l.inFlow && !l.keyAllowed then none
  let l ← (l.openBlock g.column l.tokens.size .blockSequenceStart).dropCandidate
  return { l.push .blockEntry with rest := l.rest.drop 1, keyAllowed := true }

def readKey (l : Lexer) (g : Glyph) : Option Lexer := do
  if !l.inFlow && !l.keyAllowed then none
  let l ← (l.openBlock g.column l.tokens.size .blockMappingStart).dropCandidate
  return { l.push .key with rest := l.rest.drop 1, keyAllowed := !l.inFlow }

/-- The colon of a value. It makes the candidate a key; without a candidate the key is empty or
stands behind a question mark. -/
def readValue (l : Lexer) (g : Glyph) : Option Lexer :=
  match l.candidate with
  | some c =>
    let l := { l with tokens := l.tokens.insertIdxIfInBounds c.position .key, candidate := none }
    let l := l.openBlock c.column c.position .blockMappingStart
    some { l.push .value with rest := l.rest.drop 1, keyAllowed := false }
  | none =>
    if !l.inFlow && !l.keyAllowed then none
    else
      let l := l.openBlock g.column l.tokens.size .blockMappingStart
      some { l.push .value with rest := l.rest.drop 1, keyAllowed := !l.inFlow }

/-- An anchor, an alias or a tag, or a quoted scalar: a token that may start a key and after which
none may. -/
def readNodePart (l : Lexer) (g : Glyph) (read : Source → Option (Token × Source)) :
    Option Lexer := do
  let l ← l.addCandidate g
  let (token, rest) ← read l.rest
  return { l.push token with rest, keyAllowed := false }

def readBlockScalar (l : Lexer) (folded : Bool) (size : Nat) : Option Lexer := do
  let l ← l.dropCandidate
  let (text, rest) ← readBlock folded l.floor size (l.rest.drop 1)
  return { l.push (.scalar false text) with rest, keyAllowed := true }

def readQuotedScalar (double : Bool) (size : Nat) (s : Source) : Option (Token × Source) := do
  let (text, rest) ← readQuoted double size (s.drop 1)
  return (.scalar false text, rest)

/-- A plain scalar of at most `size` parts. A key may start behind it when a line break does. -/
def readPlainScalar (l : Lexer) (g : Glyph) (size : Nat) : Option Lexer := do
  let l ← l.addCandidate g
  let (text, broken, rest) ← readPlain l.inFlow l.floor size [] false l.rest
  return { l.push (.scalar true text) with rest, keyAllowed := broken }

/-- Whether a character cannot start a plain scalar by itself: a blank or an indicator. -/
def isIndicator (c : Char) : Bool :=
  isBlank c || "-?:,[]\x7b\x7d#&*!|>'\"%@`".toList.contains c

/-- Whether a plain scalar starts with a character and the source behind it: a dash needs
something else than a blank behind it, and outside of brackets so do a question mark and a
colon. -/
def startsPlain (inFlow : Bool) (c : Char) (behind : Source) : Bool :=
  !isIndicator c || (c == '-' && !(starts ' ' behind || starts '\t' behind)) ||
    (!inFlow && (c == '?' || c == ':') && !endsWord behind)

/-- The lexer behind the token that starts with `g`, out of at most `size` characters. -/
def readToken (l : Lexer) (g : Glyph) (behind : Source) (size : Nat) : Option Lexer :=
  let c := g.char
  if g.column == 0 && c == '%' then l.readDirectiveToken
  else if isMarker '-' l.rest then l.readDocumentMarker .documentStart
  else if isMarker '.' l.rest then l.readDocumentMarker .documentEnd
  else if c == '[' then l.openFlow g .flowSequenceStart
  else if c == '\x7b' then l.openFlow g .flowMappingStart
  else if c == ']' then l.closeFlow .flowSequenceEnd
  else if c == '\x7d' then l.closeFlow .flowMappingEnd
  else if c == ',' then l.readFlowEntry
  else if c == '-' && endsWord behind then l.readBlockEntry g
  else if c == '?' && (l.inFlow || endsWord behind) then l.readKey g
  else if c == ':' && (l.inFlow || endsWord behind) then l.readValue g
  else if c == '*' then l.readNodePart g fun s => do
    let (name, rest) ← readAnchorName (s.drop 1)
    return (.aliasOf name, rest)
  else if c == '&' then l.readNodePart g fun s => do
    let (name, rest) ← readAnchorName (s.drop 1)
    return (.anchor name, rest)
  else if c == '!' then l.readNodePart g (readTag l.inFlow)
  else if c == '|' && !l.inFlow then l.readBlockScalar false size
  else if c == '>' && !l.inFlow then l.readBlockScalar true size
  else if c == '\'' then l.readNodePart g (readQuotedScalar false size)
  else if c == '"' then l.readNodePart g (readQuotedScalar true size)
  else if startsPlain l.inFlow c behind then l.readPlainScalar g size
  else none

/-- The tokens of a source, after those that the lexer has read. Each step reads at least one
character, so as many steps as there are characters are enough. -/
def run : Nat → Lexer → Option (List Token)
  | 0, _ => none
  | fuel + 1, l =>
    let l := l.atToken
    match l.rest with
    | [] => l.closeAll.dropCandidate.map (·.tokens.toList)
    | g :: behind => do
      let l ← l.dropStale g
      let l ← (l.closeBlocks g.column).readToken g behind (fuel + 1)
      run fuel l

end Lexer

def Token.ofSource? (s : Source) : Option (List Token) :=
  Lexer.run (s.length + 1) (Lexer.start s)

end OperatorChart.Yaml
