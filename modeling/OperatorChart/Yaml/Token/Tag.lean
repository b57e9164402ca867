import OperatorChart.Yaml.Source
import OperatorChart.Yaml.Token
/-!
# Tags, anchors and directives

The tokens that start with an indicator and a name.
-/

namespace OperatorChart.Yaml

open Source

/-! ## Anchors and aliases -/

def readAnchorName (s : Source) : Option (Text × Source) :=
  let name := s.takeWhile (isWordChar ·.char)
  let rest := s.dropWhile (isWordChar ·.char)
  if name.isEmpty || !(endsWord rest || startsIn "?:,]\x7d%@`".toList rest) then none
  else some (Source.text name, rest)

/-! ## Tags -/

/-- Whether a character may stand in a tag. The brackets and the comma of collections may do so
only in a verbatim tag and in a directive. -/
def isTagChar (verbatim : Bool) (c : Char) : Bool :=
  isWordChar c || ";/?:@&=+$.!~*'()".toList.contains c || (verbatim && ",[]".toList.contains c)

/-- The length in bytes of the UTF-8 form that starts with a byte. -/
def leadingWidth? (byte : Nat) : Option Nat :=
  if byte < 0x80 then some 1
  else if 0xC0 ≤ byte && byte < 0xE0 then some 2
  else if 0xE0 ≤ byte && byte < 0xF0 then some 3
  else if 0xF0 ≤ byte && byte < 0xF8 then some 4
  else none

/-- The value of one byte written as a percent sign and two hexadecimal digits. -/
def percentByte? : Source → Option Nat
  | g₁ :: g₂ :: g₃ :: _ => do
    if g₁.char != '%' then none
    return (← hexDigit? g₂.char) * 16 + (← hexDigit? g₃.char)
  | _ => none

/-- The character whose UTF-8 form is written in percent signs here, and the number of bytes. A
form that no character has stands for U+FFFD. -/
def percentChar? (s : Source) : Option (Char × Nat) := do
  let first ← percentByte? s
  let width ← leadingWidth? first
  let more ← (List.range (width - 1)).mapM fun i => do
    let byte ← percentByte? (s.drop (3 * (i + 1)))
    if 0x80 ≤ byte && byte < 0xC0 then some byte else none
  let start := match width with
    | 1 => first
    | 2 => first - 0xC0
    | 3 => first - 0xE0
    | _ => first - 0xF0
  let code := more.foldl (fun code byte => code * 64 + (byte - 0x80)) start
  return (if code.isValidChar then Char.ofNat code else '\ufffd', width)

/-- The characters of a tag and the rest. `skip` counts characters of an escape that are still to
be passed over. -/
def readTagText (verbatim : Bool) : Nat → Source → Option (Text × Source)
  | _, [] => some ([], [])
  | skip + 1, _ :: rest => readTagText verbatim skip rest
  | 0, g :: rest =>
    if g.char == '%' then do
      let (c, width) ← percentChar? (g :: rest)
      let (text, after) ← readTagText verbatim (3 * width - 1) rest
      return (c :: text, after)
    else if isTagChar verbatim g.char then
      (readTagText verbatim 0 rest).map fun (text, after) => (g.char :: text, after)
    else some ([], g :: rest)

/-- A tag up to its first U+0000. -/
def cutAtNull (text : Text) : Text :=
  text.takeWhile (· != '\x00')

/-- The handle of a tag, from its exclamation mark on: word characters, and a second mark if there
is one. -/
def readTagHandle : Source → Option (Text × Source)
  | [] => none
  | g :: s =>
    if g.char != '!' then none
    else
      let name := Source.text (s.takeWhile (isWordChar ·.char))
      let rest := s.dropWhile (isWordChar ·.char)
      if starts '!' rest then some ('!' :: name ++ ['!'], rest.drop 1)
      else some ('!' :: name, rest)

/-- Handle and suffix of a tag. A handle without a second mark is part of the suffix, under the
primary handle; the mark alone is a tag of its own. -/
def readTag (inFlow : Bool) (s : Source) : Option (Token × Source) := do
  let (token, rest) ←
    if startsIn ['<'] (s.drop 1) then do
      let (suffix, rest) ← readTagText true 0 (s.drop 2)
      if suffix.isEmpty || !starts '>' rest then none
      else some (Token.tag [] (cutAtNull suffix), rest.drop 1)
    else do
      let (handle, rest) ← readTagHandle s
      let (text, rest) ← readTagText false 0 rest
      if 1 < handle.length && handle.getLast? == some '!' then
        if text.isEmpty then none else some (Token.tag handle (cutAtNull text), rest)
      else
        let suffix := handle.drop 1 ++ cutAtNull text
        some (if suffix.isEmpty then Token.tag [] ['!'] else Token.tag ['!'] suffix, rest)
  if (inFlow && starts ',' rest) || endsWord rest then some (token, rest) else none

/-! ## Directives -/

def readVersionNumber (s : Source) : Option (Nat × Source) :=
  let digits := Source.text (s.takeWhile (·.char.isDigit))
  if digits.isEmpty || 9 < digits.length then none
  else some (digits.foldl (fun n c => n * 10 + (c.toNat - 48)) 0, s.dropWhile (·.char.isDigit))

def readVersion (s : Source) : Option (Token × Source) := do
  let (major, s) ← readVersionNumber s.skipBlanks
  if !starts '.' s then none
  let (minor, s) ← readVersionNumber (s.drop 1)
  return (.versionDirective major minor, s)

def readTagDeclaration (s : Source) : Option (Token × Source) := do
  let (handle, s) ← readTagHandle s.skipBlanks
  if 1 < handle.length && handle.getLast? != some '!' then none
  if !(starts ' ' s || starts '\t' s) then none
  let (start, s) ← readTagText true 0 s.skipBlanks
  if start.isEmpty || !endsWord s then none
  return (.tagDirective handle (cutAtNull start), s)

def readDirective (s : Source) : Option (Token × Source) := do
  let name := Source.text (s.takeWhile (isWordChar ·.char))
  let rest := s.dropWhile (isWordChar ·.char)
  if !endsWord rest then none
  let (token, rest) ←
    if name == "YAML".toList then readVersion rest
    else if name == "TAG".toList then readTagDeclaration rest
    else none
  return (token, ← rest.endLine?)

end OperatorChart.Yaml
