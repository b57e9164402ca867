import OperatorChart.CommandLine.Request
/-!
# The command line

The arguments say what is asked for: a run of the `template` command, the version or help. They
are read from left to right, and the first one that cannot be used decides. Behind two dashes
alone there are no flags.
-/

namespace OperatorChart

namespace CommandLine

def program : Text :=
  "kubechart".toList

def templateCommand : Text :=
  "template".toList

def versionNumber : Text :=
  "0.1.0".toList

def templateProgram : Text :=
  program ++ '-' :: templateCommand

def readPlain (draft : Draft) : List Text → Except Request Draft
  | [] => .ok draft
  | argument :: rest => do readPlain (← draft.setInput argument) rest

/-- Reads the arguments of the `template` command. A setting that waits for its value takes the
next argument, unless that is a flag. -/
def readTemplate (draft : Draft) : Option Setting → List Text → Except Request Draft
  | none, [] => .ok draft
  | some setting, [] => .error (.misuse (.missingValue setting))
  | some setting, argument :: rest =>
    match Argument.ofText argument with
    | .plain value => do readTemplate (← draft.set setting value) none rest
    | _ => .error (.misuse (.missingValue setting))
  | none, argument :: rest =>
    match Argument.ofText argument with
    | .plain path => do readTemplate (← draft.setInput path) none rest
    | .flagsEnd => readPlain draft rest
    | .long name value =>
      match Switch.ofName? name, Setting.ofName? name, value with
      | some switch, _, none => do readTemplate (← draft.take templateProgram switch) none rest
      | none, some setting, none => readTemplate draft (some setting) rest
      | none, some setting, some value => do readTemplate (← draft.set setting value) none rest
      | _, _, _ => .error (.misuse (.unexpected argument))
    | .short letter value =>
      match Switch.ofLetter? letter, Setting.ofLetter? letter, value with
      | some switch, _, _ => do readTemplate (← draft.take templateProgram switch) none rest
      | none, some setting, none => readTemplate draft (some setting) rest
      | none, some setting, some value => do readTemplate (← draft.set setting value) none rest
      | none, none, _ => .error (.misuse (.unexpected argument))

def templateRequest (environmentProject : Option Text) (arguments : List Text) : Request :=
  match readTemplate .empty none arguments with
  | .ok draft => draft.request environmentProject
  | .error request => request

def helpRequest : List Text → Request
  | [] => .help
  | [command] =>
    if command = templateCommand || command = "help".toList then .help
    else .misuse (.unknownCommand command)
  | command :: _ => .misuse (.unknownCommand command)

def requestFrom (draft : Draft) (environmentProject : Option Text) : List Text → Request
  | [] => .misuse .noCommand
  | argument :: rest =>
    let next (switch : Option Switch) : Request :=
      match switch.map (draft.take program) with
      | none => .misuse (.unexpected argument)
      | some (.error request) => request
      | some (.ok draft) => requestFrom draft environmentProject rest
    match Argument.ofText argument with
    | .plain command =>
      if command = templateCommand then templateRequest environmentProject rest
      else if command = "help".toList then helpRequest rest
      else .misuse (.unknownCommand command)
    | .flagsEnd => .misuse .noCommand
    | .long name none => next (Switch.ofName? name)
    | .long _ (some _) => .misuse (.unexpected argument)
    | .short letter _ => next (Switch.ofLetter? letter)

def request (environmentProject : Option Text) (arguments : List Text) : Request :=
  requestFrom .empty environmentProject arguments

def usage : Text :=
  "Turn kustomize-built operator manifests into Helm chart templates

Usage: kubechart [--debug] template [OPTIONS] <INPUT>

Arguments:
  <INPUT>  Manifest file, or - for stdin

Options:
  -p, --project-name <NAME>  Kubebuilder project name (overrides the config file)
  -c, --config <FILE>        Templater config file
  -o, --output-dir <DIR>     Chart directory to write templates/ into
      --debug                Enable debug output
  -h, --help                 Print help
  -V, --version              Print version
".toList

end CommandLine

end OperatorChart
