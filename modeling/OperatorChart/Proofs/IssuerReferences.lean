import OperatorChart.Proofs.Plans
import OperatorChart.Proofs.RenderedLines
/-!
# References to issuers

A certificate refers to its issuer by name, and the two documents are templated each by itself.
A name that is the same in both stays the same if every literal in it is replaced in both or in
none. Main statement: the reference and the name of the issuer are rendered alike if and only if
the name holds no literal that is replaced in the certificate alone.
-/

namespace OperatorChart

open Text

/-! ## Entries with a name -/

/-- The entry that names an object, or refers to another one by name, behind an indentation. -/
def nameEntry (indentation name : Text) : Line :=
  indentation ++ "name: ".toList ++ name

namespace Naming

variable {project : Text} {resource : Resource}

/-- Whether a substitution works on the name in an entry as on the name alone. -/
def KeepsEntries (f : Text → Text) : Prop :=
  ∀ indentation, (∀ c ∈ indentation, isIndentation c = true) → ∀ name,
    f (nameEntry indentation name) = nameEntry indentation (f name)

theorem keepsEntries_id : KeepsEntries fun t => t :=
  fun _ _ _ => rfl

theorem KeepsEntries.comp {f g : Text → Text} (hg : KeepsEntries g) (hf : KeepsEntries f) :
    KeepsEntries fun t => g (f t) :=
  fun indentation h name =>
    (congrArg g (hf indentation h name)).trans (hg indentation h (f name))

theorem keepsEntries_replaceAll {needle : Text} (hneedle : IsWord needle) {c : Char}
    (hc : c ∈ needle) (hkey : c ∉ "name:".toList) (replacement : Text) :
    KeepsEntries (replaceAll · needle replacement) := by
  intro indentation hindentation name
  have hstart : ¬ needle <:+: indentation ++ "name:".toList := fun hocc =>
    hkey ((hneedle.infix_of_isWhite_append (isWhite_of_isIndentation hindentation) hocc).mem hc)
  have hentry : ∀ name, nameEntry indentation name =
      (indentation ++ "name:".toList) ++ ' ' :: name := by simp [nameEntry]
  rw [hentry, hentry]
  exact (replaceAll_append_cons hneedle.ne_nil (hneedle.not_mem_of_isWhiteSpace rfl) _ _ _).trans
    (congrArg (· ++ _) (replaceAll_eq_self hstart replacement))

theorem IsSubstitution.keepsEntries (hsolid : ∀ c ∈ project, Unicode.isWhiteSpace c = false)
    {f : Text → Text} (h : IsSubstitution project f) : KeepsEntries f := by
  induction h with
  | same => exact keepsEntries_id
  | @literal front mark replacement hfront hmem =>
      have hneedle := isWord_literal hsolid hfront (isWord_of_mem_ends hmem)
      have hends : ∀ entry ∈ literalEnds, '-' ∈ entry.1 ∨ '.' ∈ entry.1 := by decide
      rcases hends _ hmem with hc | hc
      · exact keepsEntries_replaceAll hneedle (List.mem_append_right front hc) (by decide) _
      · exact keepsEntries_replaceAll hneedle (List.mem_append_right front hc) (by decide) _
  | comp _ _ hf hg => exact hg.comp hf

theorem fillManagedByLine_nameEntry {indentation : Text}
    (h : ∀ c ∈ indentation, isIndentation c = true) (name : Text) :
    fillManagedByLine (nameEntry indentation name) = nameEntry indentation name := by
  apply if_neg
  have hdrop : (nameEntry indentation name).dropWhile isIndentation = "name: ".toList ++ name := by
    rw [nameEntry, List.append_assoc, List.dropWhile_append_of_pos h]
    rfl
  rw [isManagedByBuild, hdrop]
  exact Bool.false_ne_true

def renderedName (project : Text) (resource : Resource) (name : Text) : Text :=
  fillKind project resource (fillNamespace project name)

theorem fill_nameEntry (hsolid : ∀ c ∈ project, Unicode.isWhiteSpace c = false)
    (hmonitor : resource.isKind .serviceMonitor = false) {indentation : Text}
    (h : ∀ c ∈ indentation, isIndentation c = true) {name : Text}
    (hline : '\n' ∉ nameEntry indentation name) :
    fill project resource (nameEntry indentation name) =
      nameEntry indentation (renderedName project resource name) := by
  have hnames := ((isSubstitution_fillNamespace project).comp
    (isSubstitution_fillKind project hmonitor)).keepsEntries hsolid indentation h name
  rw [fill_line_of_not_monitor hsolid hmonitor hline, hnames, fillManagedByLine_nameEntry h,
    renderedName]

/-! ## Weights

The replacement for the name of an issuer adds spaces and may lose parentheses of the project's
name, those for the addresses of the service for metrics add both. So a sum of the two counts
tells them apart. -/

/-- A measure of texts, unchanged by the replacement for the name of an issuer and raised by the
other ones. -/
def weight (project t : Text) : Nat :=
  4 * t.count '(' + project.count '(' * t.count ' '

section Weights

variable {needle replacement t : Text}

theorem exists_weight_replaceAll (hneedle : needle ≠ []) (project replacement t : Text) :
    ∃ n, weight project (t.replaceAll needle replacement) + n * weight project needle =
      weight project t + n * weight project replacement ∧ (n = 0 ↔ ¬ needle <:+: t) := by
  obtain ⟨n, hcount, hnone⟩ := exists_count_replaceAll hneedle replacement t
  have hparen := hcount '('
  have hspace := hcount ' '
  refine ⟨n, ?_, hnone⟩
  unfold weight
  grind

theorem weight_replaceAll (hneedle : needle ≠ [])
    (h : weight project needle = weight project replacement) (t : Text) :
    weight project (t.replaceAll needle replacement) = weight project t := by
  obtain ⟨n, hweight, -⟩ := exists_weight_replaceAll hneedle project replacement t
  rw [h] at hweight
  exact Nat.add_right_cancel hweight

theorem weight_le_weight_replaceAll (hneedle : needle ≠ [])
    (h : weight project needle < weight project replacement) (t : Text) :
    weight project t ≤ weight project (t.replaceAll needle replacement) := by
  obtain ⟨n, hweight, -⟩ := exists_weight_replaceAll hneedle project replacement t
  have hmore := Nat.mul_le_mul_left n h.le
  omega

/-- A replacement that raises the weight shows in it. -/
theorem not_infix_of_weight_replaceAll_le (hneedle : needle ≠ [])
    (h : weight project needle < weight project replacement)
    (hle : weight project (t.replaceAll needle replacement) ≤ weight project t) :
    ¬ needle <:+: t := by
  intro hocc
  obtain ⟨n, hweight, hnone⟩ := exists_weight_replaceAll hneedle project replacement t
  have hmore := Nat.mul_lt_mul_of_pos_left h (Nat.pos_of_ne_zero fun hzero => hnone.1 hzero hocc)
  omega

end Weights

section WeighedNames

variable {t : Text} (hsolid : ∀ c ∈ project, Unicode.isWhiteSpace c = false)

include hsolid

theorem weight_append {suffix : Text} (hsuffix : IsWord suffix) (hparen : '(' ∉ suffix) :
    weight project (project ++ suffix) = 4 * project.count '(' := by
  have hspace := (isWord_append hsolid hsuffix).not_mem_of_isWhiteSpace (c := ' ') rfl
  rw [weight, List.count_eq_zero_of_not_mem hspace, List.count_append,
    List.count_eq_zero_of_not_mem hparen, Nat.mul_zero, Nat.add_zero, Nat.add_zero]

theorem weight_fillIssuer (t : Text) :
    weight project (fillIssuer project t) = weight project t := by
  have hword : IsWord issuerSuffix := ⟨by decide, by decide⟩
  unfold fillIssuer
  split
  · rfl
  · refine weight_replaceAll (isWord_append hsolid hword).ne_nil ?_ t
    have hspaces : (chartName ++ issuerSuffix).count ' ' = 4 := by decide
    have hparens : (chartName ++ issuerSuffix).count '(' = 0 := by decide
    rw [weight_append hsolid hword (by decide), weight, hspaces, hparens]
    omega

theorem not_infix_of_weight_fillMetricsService
    (h : weight project (fillMetricsService project t) = weight project t) :
    ¬ serviceAddressPlaceholder <:+: t ∧ ¬ metricsServiceLiteral project <:+: t := by
  have hword : IsWord ('-' :: metricsServiceSuffix) := ⟨by decide, by decide⟩
  have hliteral : metricsServiceLiteral project ≠ [] := (isWord_append hsolid hword).ne_nil
  have hservice : weight project (metricsServiceLiteral project) <
      weight project (metricsServiceName ++ []) := by
    have hspaces : (metricsServiceName ++ []).count ' ' = 8 := by decide
    have hparens : (metricsServiceName ++ []).count '(' = 1 := by decide
    rw [metricsServiceLiteral, weight_append hsolid hword (by decide), weight, hspaces, hparens]
    omega
  have haddress : ∀ needle ending : Text, needle.count '(' = 0 → needle.count ' ' = 0 →
      weight project needle < weight project (metricsAddress ++ ending) := by
    intro needle ending hneedle hspace
    have hparens : metricsAddress.count '(' = 1 := by decide
    rw [weight, weight, hneedle, hspace, List.count_append, hparens]
    omega
  have hdomain := haddress (serviceAddressPlaceholder ++ clusterDomain)
    (".svc".toList ++ clusterDomain) (by decide) (by decide)
  have hplaceholder := haddress serviceAddressPlaceholder ".svc".toList (by decide) (by decide)
  have hle_service := weight_le_weight_replaceAll hliteral hservice
  have hle_placeholder := weight_le_weight_replaceAll (by decide) hplaceholder
  rw [fillMetricsService_eq] at h
  -- no replacement lowers the weight, so from the first to the last each one found nothing
  have hno_domain := not_infix_of_weight_replaceAll_le (by decide) hdomain
    ((hle_placeholder _).trans ((hle_service _).trans h.le))
  rw [replaceAll_eq_self hno_domain] at h
  have hno_placeholder := not_infix_of_weight_replaceAll_le (by decide) hplaceholder
    ((hle_service _).trans h.le)
  rw [replaceAll_eq_self hno_placeholder] at h
  exact ⟨hno_placeholder, not_infix_of_weight_replaceAll_le hliteral hservice h.le⟩

end WeighedNames

/-! ## The same name in both documents -/

def replacedInCertificateOnly (project : Text) (certificate issuer : Resource) : List Text :=
  (if certificate.isForMetrics then
    [serviceAddressPlaceholder, metricsServiceLiteral project] else []) ++
  (if issuer.isKind .issuer then [] else [issuerLiteral project])

theorem forall_replacedInCertificateOnly {certificate issuer : Resource} {t : Text} :
    (∀ literal ∈ replacedInCertificateOnly project certificate issuer, ¬ literal <:+: t) ↔
      (certificate.isForMetrics = true →
        ¬ serviceAddressPlaceholder <:+: t ∧ ¬ metricsServiceLiteral project <:+: t) ∧
      (issuer.isKind .issuer = false → ¬ issuerLiteral project <:+: t) := by
  unfold replacedInCertificateOnly
  cases certificate.isForMetrics <;> cases issuer.isKind .issuer <;> simp [and_assoc]

section SameNames

variable {certificate issuer : Resource} {t : Text}
  (hsolid : ∀ c ∈ project, Unicode.isWhiteSpace c = false) (hne : project ≠ [])

include hsolid hne

/-- Behind the namespace, a certificate and its issuer get the same name if and only if it holds no
literal that is replaced in the certificate alone. -/
theorem fillCertificate_eq_iff : fillCertificate project certificate t =
    (if issuer.isKind .issuer then fillIssuer project t else t) ↔
    ∀ literal ∈ replacedInCertificateOnly project certificate issuer, ¬ literal <:+: t := by
  have hissuer : fillIssuer project t =
      (if issuer.isKind .issuer then fillIssuer project t else t) ↔
      (issuer.isKind .issuer = false → ¬ issuerLiteral project <:+: t) := by
    cases issuer.isKind .issuer with
    | true => simp
    | false => simpa [hne] using fillIssuer_eq_self_iff (t := t) hsolid
  have hmetrics : (certificate.isForMetrics = true →
      ¬ serviceAddressPlaceholder <:+: t ∧ ¬ metricsServiceLiteral project <:+: t) →
      (if certificate.isForMetrics then fillMetricsService project t else t) = t := by
    cases certificate.isForMetrics with
    | true => exact fun h => fillMetricsService_eq_self (h rfl).1 (h rfl).2
    | false => exact fun _ => rfl
  rw [forall_replacedInCertificateOnly, fillCertificate, if_neg (by rwa [List.isEmpty_iff])]
  constructor
  · intro heq
    have hservice : certificate.isForMetrics = true →
        ¬ serviceAddressPlaceholder <:+: t ∧ ¬ metricsServiceLiteral project <:+: t := by
      intro hcertificate
      apply not_infix_of_weight_fillMetricsService hsolid
      rw [if_pos hcertificate] at heq
      rw [← weight_fillIssuer hsolid, heq]
      split
      · exact weight_fillIssuer hsolid t
      · rfl
    -- so the text is the same for both, and only the issuer's name can make a difference
    rw [hmetrics hservice] at heq
    exact ⟨hservice, hissuer.1 heq⟩
  · rintro ⟨hservice, hliteral⟩
    rw [hmetrics hservice]
    exact hissuer.2 hliteral

end SameNames

end Naming

/-! ## Certificates and issuers -/

/-- Whether a resource is an issuer of the certificate manager, for a namespace or for the whole
cluster. -/
def Resource.isIssuing (resource : Resource) : Bool :=
  resource.isCertManagerKind .issuer ||
    (resource.kind == "ClusterIssuer".toList && resource.apiGroup == "cert-manager.io".toList)

namespace Templater

open Naming

variable {project : Text} {resource : Resource} {indentation s t : Text}

theorem not_isBlank_nameEntry (indentation s : Text) : (nameEntry indentation s).isBlank = false :=
  Line.not_isBlank_of_mem (c := 'n') (by simp [nameEntry]) rfl

theorem rendersLine_nameEntry (hsolid : ∀ c ∈ project, Unicode.isWhiteSpace c = false)
    (h : resource.isOneOf Wrap.rewrittenKinds = false)
    (hindentation : ∀ c ∈ indentation, isIndentation c = true)
    (hentry : nameEntry indentation s ∈ lines t) :
    RendersLine ⟨project⟩ resource t (nameEntry indentation s)
      (nameEntry indentation (renderedName project resource s)) :=
  ⟨hentry, _, rendersLines_fill hsolid h t,
    fill_nameEntry hsolid (Wrap.not_isKind_of_not_rewritten h (by decide)) hindentation
      ((areLines_lines t).unbroken _ hentry)⟩

theorem not_rewritten_of_certificate (h : resource.isCertManagerKind .certificate = true) :
    resource.isOneOf Wrap.rewrittenKinds = false := by
  have hkind : resource.kind = ResourceKind.certificate.text :=
    beq_iff_eq.1 (Bool.and_eq_true_iff.1 h).1
  unfold Resource.isOneOf Resource.isKind
  rw [hkind]
  decide

theorem not_rewritten_of_isIssuing (h : resource.isIssuing = true) :
    resource.isOneOf Wrap.rewrittenKinds = false ∧ resource.isKind .certificate = false := by
  have hkind : resource.kind = ResourceKind.issuer.text ∨
      resource.kind = "ClusterIssuer".toList := by
    simp only [Resource.isIssuing, Resource.isCertManagerKind, Resource.isKind, Bool.or_eq_true,
      Bool.and_eq_true, beq_iff_eq] at h
    exact h.imp And.left And.left
  unfold Resource.isOneOf Resource.isKind
  rcases hkind with hkind | hkind
  all_goals
    rw [hkind]
    decide

/-- The reference of a certificate and the same name of an issuer are rendered alike if and only if
the name, behind the namespace, holds no literal that is replaced in the certificate alone. -/
theorem reference_resolves_iff {name : Text} {templater : Templater} {certificate issuer : Resource}
    {reference metadata indentation' : Text} (hproject : ofProject name = .ok templater)
    (hcertificate : certificate.isCertManagerKind .certificate = true)
    (hissuer : issuer.isIssuing = true)
    (hindentation : ∀ c ∈ indentation, isIndentation c = true)
    (hindentation' : ∀ c ∈ indentation', isIndentation c = true)
    (hreference : nameEntry indentation s ∈ lines reference)
    (hmetadata : nameEntry indentation' s ∈ lines metadata) :
    (∃ referred, RendersLine templater certificate reference (nameEntry indentation s)
      (nameEntry indentation referred)) ∧
    (∃ named, RendersLine templater issuer metadata (nameEntry indentation' s)
      (nameEntry indentation' named)) ∧
    ((∃ rendered,
        RendersLine templater certificate reference (nameEntry indentation s)
          (nameEntry indentation rendered) ∧
        RendersLine templater issuer metadata (nameEntry indentation' s)
          (nameEntry indentation' rendered)) ↔
      ∀ literal ∈ replacedInCertificateOnly templater.project certificate issuer,
        ¬ literal <:+: fillNamespace templater.project s) := by
  have hsolid := solid_of_ofProject hproject
  obtain ⟨hkept, hother⟩ := not_rewritten_of_isIssuing hissuer
  have hreferred := rendersLine_nameEntry hsolid (not_rewritten_of_certificate hcertificate)
    hindentation hreference
  have hnamed := rendersLine_nameEntry hsolid hkept hindentation' hmetadata
  have hsame : renderedName templater.project certificate s =
      renderedName templater.project issuer s ↔
      ∀ literal ∈ replacedInCertificateOnly templater.project certificate issuer,
        ¬ literal <:+: fillNamespace templater.project s := by
    have hkind : certificate.isKind .certificate = true := (Bool.and_eq_true_iff.1 hcertificate).1
    have hmonitor : issuer.isKind .serviceMonitor = false :=
      Wrap.not_isKind_of_not_rewritten hkept (by decide)
    rw [← fillCertificate_eq_iff hsolid (ne_nil_of_ofProject hproject), renderedName, fillKind,
      if_pos hkind, renderedName, fillKind, hother, hmonitor]
    rfl
  refine ⟨⟨_, hreferred⟩, ⟨_, hnamed⟩, ?_⟩
  rw [← hsame]
  constructor
  · rintro ⟨rendered, hcertificate, hissuer⟩
    have hleft := hreferred.unique (not_isBlank_nameEntry _ _) hcertificate
    have hright := hnamed.unique (not_isBlank_nameEntry _ _) hissuer
    exact (List.append_cancel_left hleft).trans (List.append_cancel_left hright).symm
  · intro heq
    rw [← heq] at hnamed
    exact ⟨_, hreferred, hnamed⟩

/-- A certificate for metrics and its issuer, under the name that the build tool gives issuers. -/
theorem reference_resolves_demo :
    let certificate : Resource := ⟨"Certificate".toList, "cert-manager.io/v1".toList,
      "demo-metrics-certs".toList, []⟩
    let issuer : Resource := ⟨"Issuer".toList, "cert-manager.io/v1".toList, [], []⟩
    let reference : Text := "  issuerRef:\n    name: demo-selfsigned-issuer\n".toList
    let metadata : Text := "metadata:\n  name: demo-selfsigned-issuer\n".toList
    ofProject "demo".toList = .ok ⟨"demo".toList⟩ ∧
      certificate.isCertManagerKind .certificate = true ∧ issuer.isIssuing = true ∧
      ∃ rendered,
        RendersLine ⟨"demo".toList⟩ certificate reference
          (nameEntry "    ".toList "demo-selfsigned-issuer".toList)
          (nameEntry "    ".toList rendered) ∧
        RendersLine ⟨"demo".toList⟩ issuer metadata
          (nameEntry "  ".toList "demo-selfsigned-issuer".toList)
          (nameEntry "  ".toList rendered) := by
  intro certificate issuer reference metadata
  have hproject : ofProject "demo".toList = .ok ⟨"demo".toList⟩ := rfl
  have hcertificate : certificate.isCertManagerKind .certificate = true := by decide
  have hissuer : issuer.isIssuing = true := by decide
  have hreference : nameEntry "    ".toList "demo-selfsigned-issuer".toList ∈ lines reference := by
    decide
  have hmetadata : nameEntry "  ".toList "demo-selfsigned-issuer".toList ∈ lines metadata := by
    decide
  have hresolves := reference_resolves_iff hproject hcertificate hissuer (by decide) (by decide)
    hreference hmetadata
  exact ⟨hproject, hcertificate, hissuer, hresolves.2.2.2 (by decide)⟩

/-- The same reference to an issuer for the whole cluster gets a name that no issuer has. -/
theorem reference_to_clusterIssuer :
    let certificate : Resource := ⟨"Certificate".toList, "cert-manager.io/v1".toList,
      "demo-serving-cert".toList, []⟩
    let issuer : Resource := ⟨"ClusterIssuer".toList, "cert-manager.io/v1".toList,
      "demo-selfsigned-issuer".toList, []⟩
    ofProject "demo".toList = .ok ⟨"demo".toList⟩ ∧
      certificate.isCertManagerKind .certificate = true ∧ issuer.isIssuing = true ∧
      apply ⟨"demo".toList⟩ certificate
        "  issuerRef:\n    name: demo-selfsigned-issuer\n".toList =
        .ok (Condition.certManager.opening ++ "\n  issuerRef:\n    name: ".toList ++ chartName ++
          "-selfsigned-issuer\n".toList ++ Directive.close.render ++ "\n".toList) ∧
      apply ⟨"demo".toList⟩ issuer "metadata:\n  name: demo-selfsigned-issuer\n".toList =
        .ok "metadata:\n  name: demo-selfsigned-issuer\n".toList := by
  exact ⟨rfl, by decide, by decide, rfl, rfl⟩

/-- In a certificate for metrics, the name of an issuer can be taken for that of the service. -/
example : renderedName "demo".toList ⟨"Certificate".toList, [], "metrics".toList, []⟩
      "demo-controller-manager-metrics-service".toList = metricsServiceName ∧
    renderedName "demo".toList ⟨"Issuer".toList, [], [], []⟩
      "demo-controller-manager-metrics-service".toList =
        "demo-controller-manager-metrics-service".toList := by
  decide +kernel

end Templater

end OperatorChart
