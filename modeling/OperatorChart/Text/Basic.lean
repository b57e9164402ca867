import OperatorChart.Unicode.WhiteSpace
/-!
# Text

Manifests and templates are lists of characters, so that every operation on them is a
recursion on a list. Widths and columns are counted in bytes of UTF-8.
-/

namespace OperatorChart

/-- A piece of a manifest or a template. -/
abbrev Text := List Char

namespace Text

/-- The number of bytes of a text in UTF-8. -/
def byteLength : Text → Nat
  | [] => 0
  | c :: t => c.utf8Size + byteLength t

@[simp] theorem byteLength_nil : byteLength [] = 0 := rfl

@[simp] theorem byteLength_cons (c : Char) (t : Text) :
    byteLength (c :: t) = c.utf8Size + byteLength t := rfl

@[simp] theorem byteLength_append (s t : Text) :
    byteLength (s ++ t) = byteLength s + byteLength t := by
  induction s with
  | nil => simp
  | cons c s ih => simp [ih, Nat.add_assoc]

def ofNat (n : Nat) : Text :=
  Nat.toDigits 10 n

/-- The first `n` bytes, when the cut after them does not fall inside a character. -/
def takeBytes? : Nat → Text → Option Text
  | 0, _ => some []
  | _ + 1, [] => none
  | n + 1, c :: t =>
    if c.utf8Size ≤ n + 1 then (takeBytes? (n + 1 - c.utf8Size) t).map (c :: ·) else none

def trimStart (t : Text) : Text :=
  t.dropWhile Unicode.isWhiteSpace

def trimEnd (t : Text) : Text :=
  (t.reverse.dropWhile Unicode.isWhiteSpace).reverse

def trim (t : Text) : Text :=
  trimEnd (trimStart t)

def isBlank (t : Text) : Bool :=
  (trim t).isEmpty

def hasInfix (needle : Text) : Text → Bool
  | [] => needle.isEmpty
  | c :: t => needle.isPrefixOf (c :: t) || hasInfix needle t

/-- What stands before and after the first `separator`, if there is one. -/
def splitOnce? (separator : Char) (t : Text) : Option (Text × Text) :=
  match t.dropWhile (· != separator) with
  | [] => none
  | _ :: rest => some (t.takeWhile (· != separator), rest)

/-- The text with every occurrence of a non-empty `needle` replaced, from left to right and
without overlap. `skip` counts the characters of an occurrence that are still to be passed
over. -/
def replaceFrom (needle replacement : Text) : Nat → Text → Text
  | _, [] => []
  | skip + 1, _ :: t => replaceFrom needle replacement skip t
  | 0, c :: t =>
    if needle.isPrefixOf (c :: t) then
      replacement ++ replaceFrom needle replacement (needle.length - 1) t
    else
      c :: replaceFrom needle replacement 0 t

/-- The text with every occurrence of a non-empty `needle` replaced, from left to right and
without overlap. -/
def replaceAll (t needle replacement : Text) : Text :=
  replaceFrom needle replacement 0 t

end Text

end OperatorChart
