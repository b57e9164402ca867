import OperatorChart.Directive
/-!
# Conditions

The feature flags that parts of a chart depend on, and the guards that render a part only
when its flag is set: an opening line above the part and a closing line below it, both at the
indentation of the part.
-/

namespace OperatorChart

inductive Condition
  | crd
  | certManager
  | metrics
  | certManagerAndMetrics
  | prometheus
  | rbacHelpers
  deriving DecidableEq, Repr

namespace Condition

def expression : Condition → Text
  | crd => ".Values.crd.enable".toList
  | certManager => ".Values.certManager.enable".toList
  | metrics => ".Values.metrics.enable".toList
  | certManagerAndMetrics => "and .Values.certManager.enable .Values.metrics.enable".toList
  | prometheus => ".Values.prometheus.enable".toList
  | rbacHelpers => ".Values.rbacHelpers.enable".toList

/-- The line that opens a guard, without indentation. -/
def opening (condition : Condition) : Line :=
  (Directive.ifThen condition.expression).render

/-- The lines of a body between the opening and the closing line of a guard, both indented by
`indentation`. -/
def guard (condition : Condition) (indentation : Text) (body : List Line) : List Line :=
  (indentation ++ condition.opening) :: (body ++ [indentation ++ Directive.close.render])

def isOpenedBy (condition : Condition) : Option Line → Bool
  | some line => line.trimmed == condition.opening
  | none => false

/-- Whether the line right above line `i` opens a guard. -/
def guards (condition : Condition) (lines : List Line) (i : Nat) : Bool :=
  0 < i && condition.isOpenedBy lines[i - 1]?

end Condition

end OperatorChart
