import OperatorChart.BlankRuns
import OperatorChart.CertificateGuard
import OperatorChart.Naming
import OperatorChart.Values.Image
/-!
# Passes

Templating is a sequence of passes over the text of a manifest. Each takes the text that the one
before it left, and knows otherwise only the resource and the name of the project. The guard of
a whole document comes first, the list of arguments is rebuilt before single arguments are
guarded, and blank lines go last.
-/

namespace OperatorChart

/-- What a pass knows besides the text. -/
structure PassContext where
  resource : Resource
  project : Text

/-- The resources that a pass runs on. -/
inductive PassScope
  | all
  | kind (kind : ResourceKind)
  deriving DecidableEq, Repr

def PassScope.includes : PassScope → Resource → Bool
  | all, _ => true
  | kind k, resource => resource.isKind k

structure Pass where
  name : Text
  scope : PassScope
  run : PassContext → Text → Except EditError Text

namespace Pass

/-- A pass that cannot fail. -/
def ofText (name : String) (scope : PassScope) (f : PassContext → Text → Text) : Pass :=
  ⟨name.toList, scope, fun context text => .ok (f context text)⟩

/-- A pass over the lines of a deployment that cannot fail. -/
def ofLines (name : String) (f : List Line → List Line) : Pass :=
  ofText name (.kind .deployment) fun _ text => text.overLines f

def ofEdit (name : String) (f : List Line → Except EditError (List Line)) : Pass :=
  ⟨name.toList, .kind .deployment, fun _ text => (f text.lines).map Text.ofLines⟩

def all : List Pass :=
  [ofText "conditional-wrap" .all fun c => Wrap.apply c.resource,
   ofText "namespace" .all fun c => Naming.fillNamespace c.project,
   ofText "certificate-dns-names" (.kind .certificate) fun c =>
    Naming.fillCertificate c.project c.resource,
   ofText "issuer-name" (.kind .issuer) fun c => Naming.fillIssuer c.project,
   ofText "service-monitor-name" (.kind .serviceMonitor) fun c =>
    Naming.fillMonitor c.project c.resource,
   ofText "managed-by-label" .all fun _ => Naming.fillManagedBy,
   ofEdit "image" Values.fillImage,
   ofEdit "env" Values.fillEnv,
   ofEdit "pod-security-context" Values.fillPodSecurityContext,
   ofEdit "container-security-context" Values.fillContainerSecurityContext,
   ofEdit "resources" Values.fillResources,
   ofLines "controller-manager-args" Values.fillArgs,
   ofLines "cert-path-args" (CertificateGuard.guardPaths none),
   ofLines "webhook-volume-mounts" ItemGuard.webhookVolumeMount.apply,
   ofLines "webhook-volumes" ItemGuard.webhookVolume.apply,
   ofLines "metrics-volume-mounts" ItemGuard.metricsVolumeMount.apply,
   ofLines "metrics-volumes" ItemGuard.metricsVolume.apply,
   ofText "collapse-blank-lines" .all fun _ text => text.overLines BlankRuns.collapse]

def ofName? (name : Text) : Option Pass :=
  all.find? (·.name == name)

def forResource (resource : Resource) : List Pass :=
  all.filter (·.scope.includes resource)

/-- What one pass of a run did. -/
structure Step where
  pass : Text
  before : Text
  after : Text

def Step.changed (step : Step) : Bool :=
  step.after != step.before

/-- The steps of a run of passes, each on the text that the one before it left. -/
def steps (context : PassContext) : List Pass → Text → Except EditError (List Step)
  | [], _ => .ok []
  | pass :: rest, text => do
    let after ← pass.run context text
    return ⟨pass.name, text, after⟩ :: (← steps context rest after)

def runAll (context : PassContext) : List Pass → Text → Except EditError Text
  | [], text => .ok text
  | pass :: rest, text => do runAll context rest (← pass.run context text)

end Pass

end OperatorChart
