import OperatorChart.Failure
import OperatorChart.Rendering
/-!
# Runs

A run templates one manifest. It looks up the project, reads the manifest and makes a plan: what
to print and what to write, in order. Nothing is written before the plan is complete, and each
effect in it either succeeds or ends the run. Files, the standard input and the standard output
belong to a host, so a run can take place on a real machine as well as on a tree of files.
-/

namespace OperatorChart

/-- What is read at a path or from the standard input. -/
inductive ReadResult
  | missing
  /-- There is something, but no text. -/
  | unreadable
  | text (text : Text)
  deriving DecidableEq, Repr

structure Host (m : Type → Type) where
  readFile : Text → m ReadResult
  readStandardInput : m ReadResult
  /-- Makes the directory at a path and those above it; answers whether that succeeded. -/
  makeDirectories : Text → m Bool
  /-- Writes a text to the file at a path; answers whether that succeeded. -/
  writeFile : Text → Text → m Bool
  print : Text → m Unit

structure Invocation where
  /-- The path of the manifest; a dash stands for the standard input. -/
  input : Text
  project : Option Text
  /-- The path of a configuration file. -/
  config : Option Text
  /-- The path of a chart's directory; without one the templates are printed. -/
  outputDirectory : Option Text
  deriving DecidableEq, Repr

/-- Something a run does that can be seen from outside. -/
inductive Effect
  /-- Make the directory at a path; if that cannot be done the run fails for the given reason. -/
  | makeDirectories (path : Text) (otherwise : Failure)
  | writeFile (path text : Text)
  | print (text : Text)
  deriving DecidableEq, Repr

structure Plan where
  effects : List Effect
  summary : Summary
  deriving DecidableEq, Repr

/-! ## From what was read to a plan -/

namespace Invocation

/-- The templater that a configuration file at `path` describes. -/
def configured (path : Text) : ReadResult → Except Failure Templater
  | .missing => .error (.config path .missing)
  | .unreadable => .error (.config path .unreadable)
  | .text text => (Templater.ofConfig text).mapError (.config path <| .invalid ·)

def named (name : Text) : Except Failure Templater :=
  (Templater.ofProject name).mapError .projectName

/-- The templater of a run, given what was read at the path of its configuration file. The name
of a project takes the place of the configured one, which must be valid all the same. -/
def templater (invocation : Invocation) (config : Option (Text × ReadResult)) :
    Except Failure Templater :=
  match config, invocation.project with
  | none, none => .error .noProjectName
  | none, some name => named name
  | some (path, reading), none => configured path reading
  | some (path, reading), some name => do
    let _ ← configured path reading
    named name

def usesStandardInput (invocation : Invocation) : Bool :=
  invocation.input == ['-']

def manifest (invocation : Invocation) : ReadResult → Except Failure Text
  | .text text => .ok text
  | .missing => .error (.inputMissing invocation.input)
  | .unreadable =>
    .error (if invocation.usesStandardInput then .standardInputUnreadable
      else .inputUnreadable invocation.input)

end Invocation

def Target.effects (directory : Text) (target : Target) : List Effect :=
  let path := Path.append directory target.path
  [.makeDirectories (Path.directory path) .templateDirectory, .writeFile path target.text,
    .print ("wrote ".toList ++ path ++ ['\n'])]

/-- The effects that put templates out: into a chart's directory, all of them or none, or else as
one stream. -/
def effectsFor (templates : List Template) : Option Text → Except Failure (List Effect)
  | none => .ok [.print (streamOf templates)]
  | some directory => do
    let targets ← (targetsOf templates).mapError .target
    return .makeDirectories directory (.outputDirectory directory) ::
      targets.flatMap (Target.effects directory)

def Invocation.plan (invocation : Invocation) (templater : Templater) (manifest : Text) :
    Except Failure Plan := do
  let documents := Manifest.documents manifest
  if documents.isEmpty then throw (.noDocuments invocation.input)
  let fates ← (templater.fates documents).mapError .edit
  return ⟨← effectsFor (templatesOf fates) invocation.outputDirectory, Summary.of fates⟩

/-! ## Running -/

section Running

variable {m : Type → Type} [Monad m]

def Invocation.prepare (host : Host m) (invocation : Invocation) : m (Except Failure Plan) := do
  let config ← match invocation.config with
    | none => pure none
    | some path => pure (some (path, ← host.readFile path))
  match invocation.templater config with
  | .error failure => return .error failure
  | .ok templater =>
    let reading ← if invocation.usesStandardInput then host.readStandardInput
      else host.readFile invocation.input
    return (invocation.manifest reading).bind (invocation.plan templater)

/-- Performs effects one after another until one fails; answers why it failed. -/
def Effect.performAll (host : Host m) : List Effect → m (Option Failure)
  | [] => pure none
  | .makeDirectories path otherwise :: rest => do
    if ← host.makeDirectories path then performAll host rest else return some otherwise
  | .writeFile path text :: rest => do
    if ← host.writeFile path text then performAll host rest else return some (.unwritten path)
  | .print text :: rest => do
    host.print text
    performAll host rest

def Invocation.run (host : Host m) (invocation : Invocation) : m (Except Failure Summary) := do
  match ← invocation.prepare host with
  | .error failure => return .error failure
  | .ok plan =>
    match ← Effect.performAll host plan.effects with
    | some failure => return .error failure
    | none => return .ok plan.summary

end Running

end OperatorChart
