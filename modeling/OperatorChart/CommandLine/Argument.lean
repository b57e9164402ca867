import OperatorChart.Text.Basic
/-!
# Arguments

A flag is written with two dashes and its name, or with one dash and a letter; its value stands
behind an equals sign, behind the letter, or in the next argument. A dash alone is no flag.
-/

namespace OperatorChart

inductive Argument
  /-- Two dashes alone: no flags follow. -/
  | flagsEnd
  | long (name : Text) (value : Option Text)
  | short (letter : Char) (value : Option Text)
  | plain (text : Text)
  deriving DecidableEq, Repr

namespace Argument

/-- The value behind a letter; an equals sign between the two is left out. -/
def attachedValue : Text → Option Text
  | [] => none
  | '=' :: value => some value
  | value => some value

def ofText : Text → Argument
  | ['-', '-'] => flagsEnd
  | '-' :: '-' :: flag =>
    match Text.splitOnce? '=' flag with
    | some (name, value) => long name (some value)
    | none => long flag none
  | '-' :: letter :: rest => short letter (attachedValue rest)
  | text => plain text

end Argument

inductive Switch
  | debug
  | version
  | help
  deriving DecidableEq, Repr

inductive Setting
  | project
  | config
  | outputDirectory
  deriving DecidableEq, Repr

def Switch.ofName? (name : Text) : Option Switch :=
  if name = "debug".toList then some debug
  else if name = "version".toList then some version
  else if name = "help".toList then some help
  else none

def Switch.ofLetter? : Char → Option Switch
  | 'V' => some version
  | 'h' => some help
  | _ => none

namespace Setting

def name : Setting → Text
  | project => "project-name".toList
  | config => "config".toList
  | outputDirectory => "output-dir".toList

def ofName? (text : Text) : Option Setting :=
  [project, config, outputDirectory].find? (·.name = text)

def ofLetter? : Char → Option Setting
  | 'p' => some project
  | 'c' => some config
  | 'o' => some outputDirectory
  | _ => none

def allows (setting : Setting) (value : Text) : Bool :=
  setting = project || !value.isEmpty

end Setting

end OperatorChart
