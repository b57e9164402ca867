import OperatorChart.Container
import OperatorChart.Probe
import OperatorChart.Directive
/-!
# Fields taken from the chart's values

Some keys of a deployment are configured by the chart's values: the block of the key becomes a
lookup in the values with a literal fallback. The key keeps what stands before it on its line,
the indentation and the dash of an item; that part is cut off by its width in bytes, so the
edit fails when the width ends inside a character.
-/

namespace OperatorChart

inductive EditError
  /-- The column of a key, counted in bytes, falls inside a character of its line. -/
  | columnInsideCharacter (line : Line) (column : Nat)
  deriving DecidableEq, Repr

/-- What stands before the key of a line. -/
def keyPrefix (line : Line) : Except EditError Text :=
  match Text.takeBytes? line.column line with
  | some start => .ok start
  | none => .error (.columnInsideCharacter line line.column)

def padding (width : Nat) : Text :=
  List.replicate width ' '

/-- A key whose value is looked up in the chart's values. -/
structure ValuesField where
  /-- The name of the key. -/
  key : Text
  /-- Where the value is looked up; also the marker of the edit's own output. -/
  path : Text
  /-- What the value is when the chart's values hold none. -/
  fallback : Text
  /-- How the block of the key ends. -/
  style : BlockStyle
  /-- The number of lines behind the block in which the marker is looked for. -/
  lookahead : Nat

namespace ValuesField

def probe (field : ValuesField) : Probe :=
  ⟨field.path, field.lookahead⟩

/-- The lines of the field with its key at `column` behind `start`: the lookup, indented by two
more, and the fallback. -/
def render (field : ValuesField) (start : Text) (column : Nat) : List Line :=
  let width := column + 2
  let lookup := "toYaml ".toList ++ field.path ++ " | nindent ".toList ++ Text.ofNat width
  (start ++ field.key ++ [':']) ::
    [(Directive.ifThen field.path).render, (Directive.trimmedValue lookup).render,
      Directive.otherwise.render, field.fallback, Directive.close.render].map (padding width ++ ·)

/-- The lines with the block of the key in line `key` looked up in the values, unless it already
is. -/
def fill (field : ValuesField) (lines : List Line) (key : Nat) :
    Except EditError (List Line) :=
  let block := Block.locate field.style lines key
  if field.probe.found lines block then .ok lines
  else do
    let start ← keyPrefix (lineAt lines key)
    return splice lines block.start block.stop (field.render start (lineAt lines key).column)

/-- The lines with the field added before line `i`, its key at `column`. -/
def insert (field : ValuesField) (lines : List Line) (i column : Nat) : List Line :=
  splice lines i i (field.render (padding column) column)

end ValuesField

namespace Values

def env : ValuesField where
  key := "env".toList
  path := ".Values.controllerManager.env".toList
  fallback := "[]".toList
  style := .sequence
  lookahead := 0

def resources : ValuesField where
  key := "resources".toList
  path := ".Values.controllerManager.resources".toList
  fallback := "\x7b\x7d".toList
  style := .mapping
  lookahead := 0

def podSecurityContext : ValuesField where
  key := "securityContext".toList
  path := ".Values.controllerManager.podSecurityContext".toList
  fallback := "\x7b\x7d".toList
  style := .mapping
  lookahead := 0

def containerSecurityContext : ValuesField where
  key := "securityContext".toList
  path := ".Values.controllerManager.securityContext".toList
  fallback := "\x7b\x7d".toList
  style := .mapping
  lookahead := 5

/-- The lines with the manager's environment looked up in the values; a manager without one
gets it at its end. -/
def fillEnv (lines : List Line) : Except EditError (List Line) :=
  match Container.manager? lines with
  | some container =>
    match container.key? lines env.key with
    | some key => env.fill lines key
    | none => .ok (env.insert lines container.stop container.column)
  | none => .ok lines

def fillResources (lines : List Line) : Except EditError (List Line) :=
  match (Container.manager? lines).bind (·.key? lines resources.key) with
  | some key => resources.fill lines key
  | none => .ok lines

/-- Whether the line behind the block of a mapping is the service account of the pod, at the
column of the block. -/
def isBeforeServiceAccount (lines : List Line) (key : Nat) : Bool :=
  let block := Block.locate .mapping lines key
  match lines[block.stop]? with
  | some line => line.indent == block.column && line.hasKey "serviceAccountName".toList
  | none => false

/-- The lines with the manager's own security context looked up in the values. A context before
the service account is the pod's. -/
def fillContainerSecurityContext (lines : List Line) : Except EditError (List Line) :=
  match (Container.manager? lines).bind (·.key? lines containerSecurityContext.key) with
  | some key =>
    if isBeforeServiceAccount lines key then .ok lines
    else containerSecurityContext.fill lines key
  | none => .ok lines

/-- The pod's security context: the first one before the service account. -/
def podSecurityContextKey? (lines : List Line) : Option Nat :=
  (List.range lines.length).find? fun i =>
    !(lineAt lines i).isItem && (lineAt lines i).hasKey podSecurityContext.key &&
      isBeforeServiceAccount lines i

def fillPodSecurityContext (lines : List Line) : Except EditError (List Line) :=
  match podSecurityContextKey? lines with
  | some key => podSecurityContext.fill lines key
  | none => .ok lines

end Values

end OperatorChart
