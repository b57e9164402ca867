import OperatorChart.CommandLine
/-!
# Outcomes

A request is answered on a host. The outcome says what the program reports to its user and which
code it exits with.
-/

namespace OperatorChart

inductive Outcome
  | done (summary : Summary)
  | failed (failure : Failure)
  /-- What was asked for was printed. -/
  | shown
  | misused (misuse : Misuse)
  deriving DecidableEq, Repr

namespace Outcome

def exitCode : Outcome → Nat
  | done _ | shown => 0
  | failed failure => failure.exitCode
  | misused _ => 2

/-- The last message of a run that did what it was asked for. -/
def summary? : Outcome → Option Text
  | done summary => some summary.message
  | _ => none

def report : Outcome → List Text
  | done summary => [summary.message]
  | failed failure =>
    ("Error: ".toList ++ failure.message) :: failure.help?.toList.map ("help: ".toList ++ ·)
  | shown => []
  | misused misuse => ["error: ".toList ++ misuse.message, CommandLine.usage]

end Outcome

def Request.answer {m : Type → Type} [Monad m] (host : Host m) : Request → m Outcome
  | .template invocation => do
    match ← invocation.run host with
    | .ok summary => return .done summary
    | .error failure => return .failed failure
  | .version program => do
    host.print (program ++ ' ' :: CommandLine.versionNumber ++ ['\n'])
    return .shown
  | .help => do
    host.print CommandLine.usage
    return .shown
  | .misuse reason => return .misused reason

end OperatorChart
