import OperatorChart.Condition
import OperatorChart.Resource
/-!
# Whole resources under a condition

Optional parts of an operator (custom resource definitions, certificates, monitoring, metrics,
helper roles) are rendered only when a feature flag is set; what a controller needs to run is
always rendered. The policy is a table of rules on the identity of a resource, and the first
rule that matches decides.
-/

namespace OperatorChart

inductive WrapAction
  /-- The chart does not render it. -/
  | drop
  /-- The whole document stands in a guard. -/
  | guard (condition : Condition)
  /-- Only the annotation that asks for certificate injection stands in a guard. -/
  | guardInjection
  /-- It stays as it is. -/
  | keep
  deriving DecidableEq, Repr

inductive ResourceKind
  | namespaceObject
  | customResourceDefinition
  | certificate
  | issuer
  | service
  | serviceMonitor
  | deployment
  | serviceAccount
  | role
  | clusterRole
  | roleBinding
  | clusterRoleBinding
  | validatingWebhookConfiguration
  | mutatingWebhookConfiguration
  deriving DecidableEq, Repr

namespace ResourceKind

def text : ResourceKind → Text
  | namespaceObject => "Namespace".toList
  | customResourceDefinition => "CustomResourceDefinition".toList
  | certificate => "Certificate".toList
  | issuer => "Issuer".toList
  | service => "Service".toList
  | serviceMonitor => "ServiceMonitor".toList
  | deployment => "Deployment".toList
  | serviceAccount => "ServiceAccount".toList
  | role => "Role".toList
  | clusterRole => "ClusterRole".toList
  | roleBinding => "RoleBinding".toList
  | clusterRoleBinding => "ClusterRoleBinding".toList
  | validatingWebhookConfiguration => "ValidatingWebhookConfiguration".toList
  | mutatingWebhookConfiguration => "MutatingWebhookConfiguration".toList

def accessControl : List ResourceKind :=
  [serviceAccount, role, clusterRole, roleBinding, clusterRoleBinding]

def webhookConfiguration : List ResourceKind :=
  [validatingWebhookConfiguration, mutatingWebhookConfiguration]

end ResourceKind

namespace Resource

def isKind (resource : Resource) (kind : ResourceKind) : Bool :=
  resource.kind == kind.text

def isOneOf (resource : Resource) (kinds : List ResourceKind) : Bool :=
  kinds.any resource.isKind

def isForMetrics (resource : Resource) : Bool :=
  Text.hasInfix "metrics".toList resource.name

/-- Whether a resource is of a kind in the API group of the certificate manager. -/
def isCertManagerKind (resource : Resource) (kind : ResourceKind) : Bool :=
  resource.isKind kind && resource.apiGroup == "cert-manager.io".toList

/-- Whether the name of a resource marks it as a helper role for users. -/
def isHelperRole (resource : Resource) : Bool :=
  ["admin-role".toList, "editor-role".toList, "viewer-role".toList].any fun marker =>
    Text.hasInfix marker resource.name

end Resource

structure WrapRule where
  applies : Resource → Bool
  action : WrapAction

namespace Wrap

/-- The policy, in order of precedence. -/
def rules : List WrapRule :=
  [⟨(·.isKind .namespaceObject), .drop⟩,
   ⟨(·.isKind .customResourceDefinition), .guard .crd⟩,
   ⟨fun r => r.isCertManagerKind .certificate && r.isForMetrics, .guard .certManagerAndMetrics⟩,
   ⟨(·.isCertManagerKind .certificate), .guard .certManager⟩,
   ⟨(·.isCertManagerKind .issuer), .guard .certManager⟩,
   ⟨fun r => r.isKind .serviceMonitor && r.apiGroup == "monitoring.coreos.com".toList,
    .guard .prometheus⟩,
   ⟨fun r => r.isOneOf ResourceKind.accessControl && r.isHelperRole, .guard .rbacHelpers⟩,
   ⟨fun r => r.isOneOf ResourceKind.accessControl && r.isForMetrics, .guard .metrics⟩,
   ⟨(·.isOneOf ResourceKind.accessControl), .keep⟩,
   ⟨(·.isOneOf ResourceKind.webhookConfiguration), .guardInjection⟩,
   ⟨fun r => r.isKind .service && r.isForMetrics, .guard .metrics⟩,
   ⟨(·.isKind .service), .keep⟩]

/-- What happens to a resource: the action of the first rule that applies, and otherwise
nothing. -/
def action (resource : Resource) : WrapAction :=
  ((rules.find? (·.applies resource)).map (·.action)).getD .keep

/-- A document between the lines of a guard. A blank document, and one whose first line opens
the same guard, stay as they are. -/
def guardDocument (condition : Condition) (text : Text) : Text :=
  if text.isBlank || (Text.firstLine text).trimmed == condition.opening then text
  else condition.opening ++ '\n' :: (Text.ensureNewline text ++ Directive.close.render ++ ['\n'])

/-- The annotation that asks for a certificate to be injected. -/
def injectionKey : Text :=
  "cert-manager.io/inject-ca-from".toList

/-- Whether a line is an indented injection annotation that does not stand behind the opening
of its guard. -/
def isBareInjection (previous : Option Line) (line : Line) : Bool :=
  0 < line.indent && line.hasKey injectionKey &&
    !Condition.certManager.isOpenedBy previous

/-- The lines with a guard around each bare injection annotation, given the line above them. -/
def guardInjections : Option Line → List Line → List Line
  | _, [] => []
  | previous, line :: rest =>
    (if isBareInjection previous line then
      Condition.certManager.guard line.leading [line.leading ++ line.trimmed]
    else [line]) ++ guardInjections (some line) rest

def apply (resource : Resource) (text : Text) : Text :=
  match action resource with
  | .drop => []
  | .guard condition => guardDocument condition text
  | .guardInjection => text.overLines (guardInjections none)
  | .keep => text

end Wrap

end OperatorChart
