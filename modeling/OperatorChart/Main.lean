import OperatorChart.Outcome
/-!
# The program

Reads the arguments, does what they ask for on the machine it runs on, and reports.
-/

namespace OperatorChart.Program

def ofBytes (bytes : ByteArray) : ReadResult :=
  match String.fromUTF8? bytes with
  | some text => .text text.toList
  | none => .unreadable

def readFile (path : Text) : IO ReadResult := do
  let file := String.ofList path
  if path.isEmpty || !(← (System.mkFilePath [file]).pathExists) then return .missing
  try return ofBytes (← IO.FS.readBinFile file)
  catch _ => return .unreadable

def readStandardInput : IO ReadResult := do
  try return ofBytes (← (← IO.getStdin).readBinToEnd)
  catch _ => return .unreadable

def succeeds (action : IO Unit) : IO Bool := do
  try
    action
    return true
  catch _ => return false

def machine : Host IO where
  readFile := readFile
  readStandardInput := readStandardInput
  makeDirectories path :=
    if path.isEmpty then return true else succeeds (IO.FS.createDirAll (String.ofList path))
  writeFile path text := succeeds (IO.FS.writeFile (String.ofList path) (String.ofList text))
  print text := IO.print (String.ofList text)

end OperatorChart.Program

def main (arguments : List String) : IO UInt32 := do
  let environment ← IO.getEnv "KUBECHART_PROJECT_NAME"
  let request := OperatorChart.CommandLine.request (environment.map String.toList)
    (arguments.map String.toList)
  let outcome ← request.answer OperatorChart.Program.machine
  for line in outcome.report do IO.eprintln (String.ofList line)
  return UInt32.ofNat outcome.exitCode
