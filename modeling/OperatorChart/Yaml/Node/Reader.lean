import OperatorChart.Yaml.Node
import OperatorChart.Yaml.Token.Lexer
/-!
# Reading documents

A stream holds at most one document. Anchors get their numbers in the order of the document: a
new name gets the number of names before it, and a name used again gets that number too, so that
a later new name may share it. An alias takes the number that its name has at that place.
-/

namespace OperatorChart.Yaml

/-- What is left of a stream, and what names in it stand for. -/
structure Reader where
  tokens : List Token
  /-- The numbers of the anchors so far, the latest first for each name. -/
  anchors : List (Text × Nat)
  /-- The number of different names of anchors so far. -/
  names : Nat
  /-- What tag handles stand for. -/
  handles : List (Text × Text)

abbrev Reading := StateT Reader Option

namespace Reading

/-- The next token; none at the end. -/
def peek : Reading (Option Token) := do
  return (← get).tokens.head?

def advance : Reading Unit :=
  modify fun r => { r with tokens := r.tokens.drop 1 }

def refuse {α : Type} : Reading α :=
  StateT.lift none

def anchorNumber (name : Text) : Reading Nat := do
  let r ← get
  let isNew := (r.anchors.lookup name).isNone
  set { r with
    anchors := (name, r.names) :: r.anchors, names := if isNew then r.names + 1 else r.names }
  return r.names

/-- The number that the name of an anchor has here. -/
def aliasNumber (name : Text) : Reading Nat := do
  StateT.lift ((← get).anchors.lookup name)

def tagOf (handle suffix : Text) : Reading Text := do
  if handle.isEmpty then return suffix
  match (← get).handles.lookup handle with
  | some start => return start ++ suffix
  | none => refuse

def anchor? : Reading (Option Text) := do
  match ← peek with
  | some (.anchor name) => advance; return some name
  | _ => return none

def tag? : Reading (Option Text) := do
  match ← peek with
  | some (.tag handle suffix) => advance; return some (← tagOf handle suffix)
  | _ => return none

/-- The anchor and the tag of a node, in either order. -/
def properties : Reading (Option Text × Option Text) := do
  match ← anchor? with
  | some name => return (some name, ← tag?)
  | none =>
    match ← tag? with
    | some tag => return (← anchor?, some tag)
    | none => return (none, none)

def isNext (tokens : List Token) : Reading Bool := do
  return (← peek).any tokens.contains

/-- A node of which only an anchor or a tag is written. -/
def absent (anchor : Option Nat) (name tag : Option Text) : Reading Node :=
  if name.isSome || tag.isSome then return .scalar anchor tag true [] else refuse

mutual

/-- A node. `inBlock` says whether it may be a collection in block style, and `atKey` whether it
may be a sequence in block style that is indented no deeper than its key. -/
def node (inBlock atKey : Bool) : Nat → Reading Node
  | 0 => refuse
  | fuel + 1 => do
    match ← peek with
    | some (.aliasOf name) => advance; return .aliasOf (← aliasNumber name)
    | _ =>
      let (name, tag) ← properties
      let anchor ← name.mapM anchorNumber
      match ← peek with
      | some (.scalar plain text) =>
        advance
        return .scalar anchor tag plain text
      | some .flowSequenceStart => advance; return .sequence anchor (← flowItems true fuel)
      | some .flowMappingStart => advance; return .mapping anchor (← flowEntries true fuel)
      | some .blockEntry =>
        if atKey then return .sequence anchor (← unindentedItems fuel)
        else absent anchor name tag
      | some .blockSequenceStart =>
        if inBlock then do advance; return .sequence anchor (← blockItems fuel)
        else absent anchor name tag
      | some .blockMappingStart =>
        if inBlock then do advance; return .mapping anchor (← blockEntries fuel)
        else absent anchor name tag
      | _ => absent anchor name tag

/-- A node, unless one of the tokens that may follow it comes next. -/
def nodeBefore (tokens : List Token) (inBlock atKey : Bool) : Nat → Reading Node
  | 0 => refuse
  | fuel + 1 => do
    if ← isNext tokens then return .empty else node inBlock atKey fuel

def blockItems : Nat → Reading (List Node)
  | 0 => refuse
  | fuel + 1 => do
    match ← peek with
    | some .blockEntry =>
      advance
      let item ← nodeBefore [.blockEntry, .blockEnd] true false fuel
      return item :: (← blockItems fuel)
    | some .blockEnd => advance; return []
    | _ => refuse

/-- The items of a sequence in block style that is indented no deeper than its key. -/
def unindentedItems : Nat → Reading (List Node)
  | 0 => refuse
  | fuel + 1 => do
    match ← peek with
    | some .blockEntry =>
      advance
      let item ← nodeBefore [.blockEntry, .key, .value, .blockEnd] true false fuel
      return item :: (← unindentedItems fuel)
    | _ => return []

def blockEntries : Nat → Reading (List (Node × Node))
  | 0 => refuse
  | fuel + 1 => do
    match ← peek with
    | some .key =>
      advance
      let key ← nodeBefore [.key, .value, .blockEnd] true true fuel
      let value ← valueBefore [.key, .value, .blockEnd] true fuel
      return (key, value) :: (← blockEntries fuel)
    | some .blockEnd => advance; return []
    | _ => refuse

/-- The value behind a colon, if one comes next; one of the given tokens may follow it. -/
def valueBefore (tokens : List Token) (inBlock : Bool) : Nat → Reading Node
  | 0 => refuse
  | fuel + 1 => do
    match ← peek with
    | some .value => advance; nodeBefore tokens inBlock inBlock fuel
    | _ => return .empty

/-- The items of a sequence in brackets. `first` says whether no comma is needed. -/
def flowItems (first : Bool) : Nat → Reading (List Node)
  | 0 => refuse
  | fuel + 1 => do
    if ← isNext [.flowSequenceEnd] then advance; return []
    if !first then
      if ← isNext [.flowEntry] then advance else refuse
    match ← peek with
    | some .key =>
      advance
      let entry ← flowPair fuel
      return .mapping none [entry] :: (← flowItems false fuel)
    | some .flowSequenceEnd => advance; return []
    | _ =>
      let item ← node false false fuel
      return item :: (← flowItems false fuel)

/-- A single entry in a sequence in brackets. Where the key is missing, the token in its place is
passed over. -/
def flowPair : Nat → Reading (Node × Node)
  | 0 => refuse
  | fuel + 1 => do
    if ← isNext [.value, .flowEntry, .flowSequenceEnd] then
      advance
      return (.empty, ← valueBefore [.flowEntry, .flowSequenceEnd] false fuel)
    else
      let key ← node false false fuel
      return (key, ← valueBefore [.flowEntry, .flowSequenceEnd] false fuel)

/-- The entries of a mapping in brackets. `first` says whether no comma is needed. -/
def flowEntries (first : Bool) : Nat → Reading (List (Node × Node))
  | 0 => refuse
  | fuel + 1 => do
    if ← isNext [.flowMappingEnd] then advance; return []
    if !first then
      if ← isNext [.flowEntry] then advance else refuse
    match ← peek with
    | some .key =>
      advance
      let key ← nodeBefore [.value, .flowEntry, .flowMappingEnd] false false fuel
      let value ← valueBefore [.flowEntry, .flowMappingEnd] false fuel
      return (key, value) :: (← flowEntries false fuel)
    | some .flowMappingEnd => advance; return []
    | _ =>
      let key ← node false false fuel
      return (key, .empty) :: (← flowEntries false fuel)

end

/-- The directives before a document: at most one version, which must be 1.1 or 1.2, and at most
one declaration of each tag handle. -/
def directives (versionSeen : Bool) (declared : List Text) : Nat → Reading Unit
  | 0 => refuse
  | fuel + 1 => do
    match ← peek with
    | some (.versionDirective major minor) =>
      if versionSeen || major != 1 || (minor != 1 && minor != 2) then refuse
      advance
      directives true declared fuel
    | some (.tagDirective handle start) =>
      if declared.contains handle then refuse
      advance
      modify fun r => { r with handles := (handle, start) :: r.handles }
      directives versionSeen (handle :: declared) fuel
    | _ => return

def isDirectiveNext : Reading Bool := do
  match ← peek with
  | some (.versionDirective _ _) => return true
  | some (.tagDirective _ _) => return true
  | _ => return false

def root (fuel : Nat) : Reading Node := do
  if (← isDirectiveNext) || (← isNext [.documentStart]) then
    directives false [] fuel
    if !(← isNext [.documentStart]) then refuse
    advance
    if (← peek).isNone || (← isDirectiveNext) || (← isNext [.documentStart, .documentEnd]) then
      return .empty
    else node true false fuel
  else node true false fuel

/-- The only document of the stream. Nothing but ends of documents may stand behind it. -/
def document (fuel : Nat) : Reading Document := do
  if (← peek).isNone then return ⟨none⟩
  let tree ← root fuel
  if (← get).tokens.all (· = .documentEnd) then return ⟨some tree⟩ else refuse

end Reading

/-- The tag handles that need no declaration. -/
def standardHandles : List (Text × Text) :=
  [(['!'], ['!']), ("!!".toList, "tag:yaml.org,2002:".toList)]

/-- The document of a stream of tokens. Each step reads a token or goes down one level, so four
steps for each token are enough. -/
def Document.ofTokens? (tokens : List Token) : Option Document :=
  (Reading.document (4 * tokens.length + 8)).run' ⟨tokens, [], 0, standardHandles⟩

/-- The document of a text, which must hold at most one. -/
def Document.parse? (text : Text) : Option Document := do
  Document.ofTokens? (← Token.ofSource? (← Source.ofText? text))

end OperatorChart.Yaml
