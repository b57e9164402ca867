import OperatorChart.Text.Basic
/-!
# Nodes

The tree of a document. An alias stands for the node with the same anchor; anchors are numbers
here, and where several nodes have one number the last of them counts.
-/

namespace OperatorChart.Yaml

inductive Node
  | scalar (anchor : Option Nat) (tag : Option Text) (plain : Bool) (text : Text)
  | sequence (anchor : Option Nat) (items : List Node)
  | mapping (anchor : Option Nat) (entries : List (Node × Node))
  | aliasOf (target : Nat)
  deriving Repr

namespace Node

/-- A node that is not written: an empty plain scalar. -/
def empty : Node :=
  scalar none none true []

def anchor? : Node → Option Nat
  | scalar anchor _ _ _ => anchor
  | sequence anchor _ => anchor
  | mapping anchor _ => anchor
  | aliasOf _ => none

mutual

/-- The last node with an anchor, in a node and below it. -/
def lastAnchored? (anchor : Nat) : Node → Option Node
  | aliasOf _ => none
  | scalar a tag plain text =>
    if a = some anchor then some (scalar a tag plain text) else none
  | sequence a items =>
    (lastInItems? anchor items).or (if a = some anchor then some (sequence a items) else none)
  | mapping a entries =>
    (lastInEntries? anchor entries).or (if a = some anchor then some (mapping a entries) else none)

def lastInItems? (anchor : Nat) : List Node → Option Node
  | [] => none
  | item :: rest => (lastInItems? anchor rest).or (lastAnchored? anchor item)

def lastInEntries? (anchor : Nat) : List (Node × Node) → Option Node
  | [] => none
  | (key, value) :: rest =>
    (lastInEntries? anchor rest).or ((lastAnchored? anchor value).or (lastAnchored? anchor key))

end

end Node

/-- A document: its tree, or nothing when the stream holds no document. -/
structure Document where
  root : Option Node
  deriving Repr

/-- The node that a node stands for: the target of an alias, and any other node itself. -/
def Document.follow (document : Document) : Node → Option Node
  | .aliasOf target => document.root.bind (·.lastAnchored? target)
  | node => some node

end OperatorChart.Yaml
