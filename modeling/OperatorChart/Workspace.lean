import OperatorChart.FileTree
import OperatorChart.Run
/-!
# Workspaces

A workspace is a host of its own: a tree of files, the directory in it where relative paths
start, a standard input and what was printed so far.
-/

namespace OperatorChart

/-- A tree of files and the surroundings of a run in it. -/
structure Workspace where
  tree : FileTree
  directory : Location
  standardInput : ReadResult
  printed : Text

namespace Workspace

def readFile (workspace : Workspace) (path : Text) : ReadResult :=
  match workspace.tree.find? workspace.directory path with
  | none => .missing
  | some (.file (.text text)) => .text text
  | some _ => .unreadable

/-- The workspace with another tree, if there is one, and whether there is. -/
def replaceTree (workspace : Workspace) : Option FileTree → Bool × Workspace
  | none => (false, workspace)
  | some tree => (true, { workspace with tree })

def makeDirectories (path : Text) (workspace : Workspace) : Bool × Workspace :=
  workspace.replaceTree (workspace.tree.makeDirectories? workspace.directory path)

def writeFile (path text : Text) (workspace : Workspace) : Bool × Workspace :=
  workspace.replaceTree (workspace.tree.writeFile? workspace.directory path (.text text))

def print (text : Text) (workspace : Workspace) : Unit × Workspace :=
  ((), { workspace with printed := workspace.printed ++ text })

def host : Host (StateM Workspace) where
  readFile path workspace := (workspace.readFile path, workspace)
  readStandardInput workspace := (workspace.standardInput, workspace)
  makeDirectories := makeDirectories
  writeFile := writeFile
  print := print

def run (workspace : Workspace) (invocation : Invocation) :
    Except Failure Summary × Workspace :=
  (invocation.run host).run workspace

end Workspace

end OperatorChart
