import OperatorChart.Condition
import OperatorChart.Values.Field
/-!
# The manager's arguments

The list of arguments mixes flags that the chart owns, for the metrics and health endpoints and
for the paths of certificates, with flags that users set. The list is rebuilt so that the owned
flags stay literal and everything else comes from the chart's values.
-/

namespace OperatorChart.Values

def metricsBindFlag : Text :=
  "--metrics-bind-address".toList

def healthProbeFlag : Text :=
  "--health-probe-bind-address".toList

def webhookCertFlag : Text :=
  "--webhook-cert-path".toList

def metricsCertFlag : Text :=
  "--metrics-cert-path".toList

/-- How an argument is carried into the rebuilt list. -/
inductive ArgKind
  | metricsBind
  | healthProbe
  | certPath
  | user
  deriving DecidableEq, Repr

/-- The kind of an argument: the first of the owned flags that it mentions. -/
def ArgKind.of (argument : Text) : ArgKind :=
  if Text.hasInfix metricsBindFlag argument then metricsBind
  else if Text.hasInfix healthProbeFlag argument then healthProbe
  else if Text.hasInfix webhookCertFlag argument || Text.hasInfix metricsCertFlag argument then
    certPath
  else user

/-- Where the arguments are looked up; also the marker of the edit's own output. -/
def argsPath : Text :=
  ".Values.controllerManager.args".toList

def argsProbe : Probe :=
  ⟨argsPath, 0⟩

/-- The address of the metrics endpoint when metrics are on, and an endpoint that is off
otherwise. -/
def metricsBindLines (line : Line) : List Line :=
  [line.leading ++ Condition.metrics.opening,
    line,
    line.leading ++ Directive.otherwise.render,
    line.leading ++
      "# Bind to :0 to disable the controller-runtime managed metrics server".toList,
    line.leading ++ "- ".toList ++ metricsBindFlag ++ "=0".toList,
    line.leading ++ Directive.close.render]

def rangeLines (indentation : Text) : List Line :=
  [indentation ++ (Directive.range argsPath).render,
    indentation ++ "- ".toList ++ (Directive.value ['.']).render,
    indentation ++ Directive.close.render]

/-- The rebuilt list for the items of a block: the last metrics address, the last health address,
the loop at the indentation of the first item, and the paths of certificates. A block without
items has the loop at `fallback`. -/
def argLines (fallback : Text) (items : List Line) : List Line :=
  let ofKind (kind : ArgKind) : List Line := items.filter (ArgKind.of ·.content = kind)
  ((ofKind .metricsBind).getLast?.map metricsBindLines).getD [] ++
    (ofKind .healthProbe).getLast?.toList ++
    rangeLines ((items.head?.map Line.leading).getD fallback) ++
    ofKind .certPath

/-- The lines with the manager's list of arguments rebuilt, unless it is empty or already is. -/
def fillArgs (lines : List Line) : List Line :=
  match (Container.manager? lines).bind (·.key? lines "args".toList) with
  | some key =>
    let block := Block.locate .sequence lines key
    if block.isEmpty || argsProbe.found lines block then lines
    else
      let items := (block.bodyOf lines).filter Line.isItem
      splice lines block.start block.stop
        (lineAt lines key :: argLines (padding (block.column + 2)) items)
  | none => lines

end OperatorChart.Values
