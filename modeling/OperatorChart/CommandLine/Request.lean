import OperatorChart.CommandLine.Argument
import OperatorChart.Run
import OperatorChart.Text.Quoted
/-!
# Requests

What the arguments of the program ask for, and the draft of a `template` command that its
arguments fill in one by one. A switch or a setting is given at most once.
-/

namespace OperatorChart

inductive Misuse
  | noCommand
  | unknownCommand (name : Text)
  | unexpected (argument : Text)
  | repeated (argument : Text)
  | missingValue (setting : Setting)
  | emptyValue (name : Text)
  | missingInput
  deriving DecidableEq, Repr

def Misuse.message : Misuse → Text
  | noCommand => "a command is required".toList
  | unknownCommand name => "unrecognized command ".toList ++ name.quoted
  | unexpected argument => "unexpected argument ".toList ++ argument.quoted
  | repeated argument => "argument given more than once: ".toList ++ argument.quoted
  | missingValue setting => "a value is required for --".toList ++ setting.name
  | emptyValue name => "a value is required for ".toList ++ name
  | missingInput => "the path of a manifest is required".toList

inductive Request
  | template (invocation : Invocation)
  /-- The version of a program or of one of its commands. -/
  | version (program : Text)
  | help
  | misuse (misuse : Misuse)
  deriving DecidableEq, Repr

/-- What is known of a `template` command before all its arguments are read. -/
structure Draft where
  debug : Bool
  project : Option Text
  config : Option Text
  outputDirectory : Option Text
  input : Option Text

namespace Draft

def empty : Draft :=
  ⟨false, none, none, none, none⟩

def get? (draft : Draft) : Setting → Option Text
  | .project => draft.project
  | .config => draft.config
  | .outputDirectory => draft.outputDirectory

/-- The draft with a value for a setting, which must have none yet. -/
def set (draft : Draft) (setting : Setting) (value : Text) : Except Request Draft :=
  if (draft.get? setting).isSome then .error (.misuse (.repeated setting.name))
  else if !setting.allows value then .error (.misuse (.emptyValue setting.name))
  else match setting with
    | .project => .ok { draft with project := some value }
    | .config => .ok { draft with config := some value }
    | .outputDirectory => .ok { draft with outputDirectory := some value }

/-- The draft with the path of the manifest, which it must not have yet. -/
def setInput (draft : Draft) (path : Text) : Except Request Draft :=
  if draft.input.isSome then .error (.misuse (.unexpected path))
  else if path.isEmpty then .error (.misuse (.emptyValue "input".toList))
  else .ok { draft with input := some path }

/-- The draft after a switch; those other than `debug` are requests of their own. -/
def take (draft : Draft) (program : Text) : Switch → Except Request Draft
  | .debug =>
    if draft.debug then .error (.misuse (.repeated "debug".toList))
    else .ok { draft with debug := true }
  | .version => .error (.version program)
  | .help => .error .help

/-- What is asked for once all arguments are read. A project name from the environment stands in
for one that is not given. -/
def request (draft : Draft) (environmentProject : Option Text) : Request :=
  match draft.input with
  | none => .misuse .missingInput
  | some input =>
    .template ⟨input, draft.project <|> environmentProject, draft.config, draft.outputDirectory⟩

end Draft

end OperatorChart
