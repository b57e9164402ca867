import OperatorChart.Block
import OperatorChart.Condition
import OperatorChart.Values.Args
/-!
# Certificates of a deployment

The paths of certificates, the volumes that hold them and their mounts exist only when the
certificate manager issues the certificates, so each stands in the guard of its certificate.
-/

namespace OperatorChart

namespace CertificateGuard

def pathCondition? (line : Line) : Option Condition :=
  if !line.isItem then none
  else if (Values.webhookCertFlag ++ ['=']).isPrefixOf line.content then some .certManager
  else if (Values.metricsCertFlag ++ ['=']).isPrefixOf line.content then
    some .certManagerAndMetrics
  else none

/-- A line, in the guard of the certificate whose path it is, unless the line above opens that
guard. -/
def guardPathLine (previous : Option Line) (line : Line) : List Line :=
  match pathCondition? line with
  | some condition =>
    if condition.isOpenedBy previous then [line] else condition.guard line.leading [line]
  | none => [line]

/-- The lines with a guard around each path of a certificate, given the line above them. -/
def guardPaths : Option Line → List Line → List Line
  | _, [] => []
  | previous, line :: rest => guardPathLine previous line ++ guardPaths (some line) rest

end CertificateGuard

/-- A guard for whole sequence items, recognised by the entry on their dash line and by an entry
further down. -/
structure ItemGuard where
  headKey : Text
  headValue : Text
  bodyKey : Text
  bodyValue : Text
  condition : Condition

namespace ItemGuard

def itemBody (line : Line) (rest : List Line) : List Line :=
  BlockStyle.item.body line.indent rest

/-- Whether a line opens an item to guard, given the line above and the lines behind it. -/
def targets (itemGuard : ItemGuard) (previous : Option Line) (line : Line) (rest : List Line) :
    Bool :=
  line.isItem && line.isEntry itemGuard.headKey itemGuard.headValue &&
    !itemGuard.condition.isOpenedBy previous &&
    (itemBody line rest).any (·.isEntry itemGuard.bodyKey itemGuard.bodyValue)

/-- The lines with a guard around each targeted item, given the line above them. `skip` counts
the lines of a guarded item that are still to be passed over. -/
def guardItems (itemGuard : ItemGuard) : Option Line → Nat → List Line → List Line
  | _, _, [] => []
  | _, skip + 1, line :: rest => guardItems itemGuard (some line) skip rest
  | previous, 0, line :: rest =>
    if itemGuard.targets previous line rest then
      itemGuard.condition.guard line.leading (line :: itemBody line rest) ++
        guardItems itemGuard (some line) (itemBody line rest).length rest
    else line :: guardItems itemGuard (some line) 0 rest

def apply (itemGuard : ItemGuard) (lines : List Line) : List Line :=
  guardItems itemGuard none 0 lines

def webhookVolumeMount : ItemGuard where
  headKey := "mountPath".toList
  headValue := "/tmp/k8s-webhook-server/serving-certs".toList
  bodyKey := "readOnly".toList
  bodyValue := "true".toList
  condition := .certManager

def webhookVolume : ItemGuard where
  headKey := "name".toList
  headValue := "webhook-certs".toList
  bodyKey := "secretName".toList
  bodyValue := "webhook-server-cert".toList
  condition := .certManager

def metricsVolumeMount : ItemGuard where
  headKey := "mountPath".toList
  headValue := "/tmp/k8s-metrics-server/metrics-certs".toList
  bodyKey := "readOnly".toList
  bodyValue := "true".toList
  condition := .certManagerAndMetrics

def metricsVolume : ItemGuard where
  headKey := "name".toList
  headValue := "metrics-certs".toList
  bodyKey := "secretName".toList
  bodyValue := "metrics-server-cert".toList
  condition := .certManagerAndMetrics

end ItemGuard

end OperatorChart
