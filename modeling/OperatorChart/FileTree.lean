import OperatorChart.Path
/-!
# File trees

A tree of directories and files without links. Each entry has a location, the names on the way
from the root; the root is a directory. Names are told apart by case and hold at most 255 bytes,
paths at most 4095.
-/

namespace OperatorChart

inductive FileContent
  | text (text : Text)
  /-- Bytes that are not the UTF-8 form of a text. -/
  | undecodable (bytes : List UInt8)
  deriving DecidableEq, Repr

inductive FileEntry
  | directory
  | file (content : FileContent)
  deriving DecidableEq, Repr

/-- The names on the way from the root to an entry. -/
abbrev Location := List Text

structure FileTree where
  entries : List (Location × FileEntry)
  deriving DecidableEq, Repr

namespace FileTree

def empty : FileTree :=
  ⟨[]⟩

def get? (tree : FileTree) (location : Location) : Option FileEntry :=
  if location.isEmpty then some .directory else tree.entries.lookup location

def put (tree : FileTree) (location : Location) (entry : FileEntry) : FileTree :=
  ⟨(location, entry) :: tree.entries.filter (·.1 != location)⟩

def isDirectory (tree : FileTree) (location : Location) : Bool :=
  tree.get? location == some .directory

def isName (name : Text) : Bool :=
  name.byteLength ≤ 255

/-- Whether a path can be followed at all: it is not empty, it holds no U+0000, and it is not too
long. -/
def isPath (path : Text) : Bool :=
  !path.isEmpty && !path.contains '\x00' && path.byteLength ≤ 4095

/-- The location at the end of some steps; every step starts from a directory. -/
def walk? (tree : FileTree) : Location → List PathStep → Option Location
  | here, [] => some here
  | here, step :: rest =>
    if !tree.isDirectory here then none
    else match step with
      | .stay => walk? tree here rest
      | .parent => walk? tree here.dropLast rest
      | .enter name => if isName name then walk? tree (here ++ [name]) rest else none

/-- Where a path is read from. -/
def origin (workingDirectory : Location) (path : Text) : Location :=
  if Path.isAbsolute path then [] else workingDirectory

def locate? (tree : FileTree) (workingDirectory : Location) (path : Text) : Option Location :=
  if isPath path then tree.walk? (origin workingDirectory path) (Path.steps path) else none

def find? (tree : FileTree) (workingDirectory : Location) (path : Text) : Option FileEntry :=
  (tree.locate? workingDirectory path).bind tree.get?

/-- The tree with a directory at each place that some steps go through. -/
def makeSteps? (tree : FileTree) : Location → List PathStep → Option FileTree
  | _, [] => some tree
  | here, .stay :: rest => tree.makeSteps? here rest
  | here, .parent :: rest => tree.makeSteps? here.dropLast rest
  | here, .enter name :: rest =>
    if !isName name then none
    else match tree.get? (here ++ [name]) with
      | none => (tree.put (here ++ [name]) .directory).makeSteps? (here ++ [name]) rest
      | some .directory => tree.makeSteps? (here ++ [name]) rest
      | some (.file _) => none

/-- The tree with the directory at the end of a path, and those above it. The empty path needs
none. A path that ends in a dot asks for what is inside of its last directory, so only those above
are made and that one must be there. -/
def makeDirectories? (tree : FileTree) (workingDirectory : Location) (path : Text) :
    Option FileTree :=
  let start := origin workingDirectory path
  if path.isEmpty then some tree
  else if !isPath path then none
  else if Path.endsInDot path then do
    let made ← tree.makeSteps? start (Path.stepsAbove path)
    let location ← made.walk? start (Path.steps path)
    if made.isDirectory location then some made else none
  else tree.makeSteps? start (Path.steps path)

/-- The tree with a file at the end of a path, whose directory must be there. -/
def writeFile? (tree : FileTree) (workingDirectory : Location) (path : Text)
    (content : FileContent) : Option FileTree := do
  let location ← tree.locate? workingDirectory path
  if tree.isDirectory location || !tree.isDirectory location.dropLast then none
  return tree.put location (.file content)

def filesBelow (tree : FileTree) (location : Location) : List (Location × FileContent) :=
  tree.entries.filterMap fun (place, entry) =>
    match entry, location.isPrefixOf? place with
    | .file content, some names => some (names, content)
    | _, _ => none

end FileTree

end OperatorChart
