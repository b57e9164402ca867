import OperatorChart.Directive
import OperatorChart.Text.Lines
import OperatorChart.Wrap
/-!
# Names

The project's name is part of namespaces, of service names and of references to issuers. Here
these literals give way to expressions that depend on the release and on the chart.
-/

namespace OperatorChart.Naming

def releaseNamespace : Text :=
  (Directive.value ".Release.Namespace".toList).render

def chartName : Text :=
  (Directive.value "include \"chart.name\" .".toList).render

def chartNamespace : Text :=
  (Directive.value "include \"chart.namespaceName\" .".toList).render

def metricsServiceSuffix : Text :=
  "controller-manager-metrics-service".toList

def metricsMonitorSuffix : Text :=
  "controller-manager-metrics-monitor".toList

def metricsServiceName : Text :=
  (Directive.value ("include \"chart.serviceName\" (dict \"suffix\" \"".toList ++
    metricsServiceSuffix ++ "\" \"context\" .)".toList)).render

/-- Stands for the address of the metrics service before a name is filled in. -/
def serviceAddressPlaceholder : Text :=
  "SERVICE_NAME.SERVICE_NAMESPACE.svc".toList

def clusterDomain : Text :=
  ".cluster.local".toList

def issuerSuffix : Text :=
  "-selfsigned-issuer".toList

/-- `<project>-system` becomes the namespace of the release, wherever it stands. Without a
project name nothing changes. -/
def fillNamespace (project text : Text) : Text :=
  if project.isEmpty then text
  else text.replaceAll (project ++ "-system".toList) releaseNamespace

/-- `<project>-selfsigned-issuer` becomes the chart's issuer, on the issuer itself and on every
certificate that refers to it. -/
def fillIssuer (project text : Text) : Text :=
  if project.isEmpty then text
  else text.replaceAll (project ++ issuerSuffix) (chartName ++ issuerSuffix)

/-- The addresses of the metrics service, as a placeholder or under the project's name, become
the address of the chart's service. -/
def fillMetricsService (project text : Text) : Text :=
  let address := metricsServiceName ++ '.' :: chartNamespace ++ ".svc".toList
  let text := text.replaceAll (serviceAddressPlaceholder ++ clusterDomain)
    (address ++ clusterDomain)
  let text := text.replaceAll serviceAddressPlaceholder address
  text.replaceAll (project ++ '-' :: metricsServiceSuffix) metricsServiceName

/-- The names in a certificate: the addresses of the metrics service when the certificate is
for metrics, then the issuer. -/
def fillCertificate (project : Text) (resource : Resource) (text : Text) : Text :=
  if project.isEmpty then text
  else fillIssuer project (if resource.isForMetrics then fillMetricsService project text else text)

/-- What is left of the name of a monitor behind the project's name, when the name follows the
convention; any other name was chosen by a user. -/
def monitorSuffix? (project name : Text) : Option Text :=
  match (project ++ ['-']).isPrefixOf? name with
  | some suffix =>
    if !project.isEmpty && !suffix.isEmpty then some suffix
    else if name == metricsMonitorSuffix then some name else none
  | none => if name == metricsMonitorSuffix then some name else none

/-- Whether `rest` is `value` between spaces and tabs. -/
def isPadded (value : Text) : Text → Bool
  | [] => value.isEmpty
  | c :: rest =>
    (match value.isPrefixOf? (c :: rest) with
      | some tail => tail.all isIndentation
      | none => false) || (isIndentation c && isPadded value rest)

/-- Whether a piece of text is an entry `name: <name>`, from the start of a line to the end of
one. -/
def isNameEntry (name text : Text) : Bool :=
  match "name:".toList.isPrefixOf? (text.dropWhile isIndentation) with
  | some rest => isPadded name rest
  | none => false

/-- The lines with each entry `name: <name>` given a new name. A name with `breaks` line breaks
makes an entry of one line more; `skip` counts the lines of an entry that are still to be
passed over. -/
def renameEntries (name newName : Text) (breaks : Nat) : Nat → List Line → List Line
  | _, [] => []
  | skip + 1, _ :: rest => renameEntries name newName breaks skip rest
  | 0, line :: rest =>
    if isNameEntry name (Text.ofLines ((line :: rest).take (breaks + 1))) then
      (line.leading ++ "name: ".toList ++ newName) ::
        renameEntries name newName breaks breaks rest
    else line :: renameEntries name newName breaks 0 rest

/-- The entries that hold the name of a monitor get the chart's name before the suffix, when the
name follows the convention. -/
def fillMonitor (project : Text) (resource : Resource) (text : Text) : Text :=
  if resource.name.isEmpty then text
  else match monitorSuffix? project resource.name with
    | some suffix =>
      text.overLines (renameEntries resource.name (chartName ++ '-' :: suffix)
        (resource.name.count '\n') 0)
    | none => text

def managedByLabel : Text :=
  "app.kubernetes.io/managed-by:".toList

/-- Whether a line is the label that names the build tool as the manager: nothing but spaces and
tabs around it, and at least one between label and value. -/
def isManagedByBuild (line : Line) : Bool :=
  match managedByLabel.isPrefixOf? (line.dropWhile isIndentation) with
  | some rest =>
    (rest.head?.any isIndentation) &&
      (match "kustomize".toList.isPrefixOf? (rest.dropWhile isIndentation) with
        | some tail => tail.all isIndentation
        | none => false)
  | none => false

/-- The line that names the service of the release as the manager, in place of the build tool. -/
def fillManagedByLine (line : Line) : Line :=
  if isManagedByBuild line then
    line.leading ++ managedByLabel ++ ' ' :: (Directive.value ".Release.Service".toList).render
  else line

/-- The label that names the build tool as the manager names the service of the release. -/
def fillManagedBy (text : Text) : Text :=
  text.overLines (·.map fillManagedByLine)

end OperatorChart.Naming
