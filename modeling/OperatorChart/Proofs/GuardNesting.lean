import OperatorChart.Proofs.DeploymentRuns
import OperatorChart.Proofs.MonitorNesting
import OperatorChart.Proofs.WrapNesting
/-!
# Nesting of the guards of a template

Main statement: the guards in the template of a manifest that holds no directives are well
nested, each at its own indentation and around lines that are indented at least as far.
-/

namespace OperatorChart

open Text Naming Nesting

theorem Line.IsGuard.role_ne {line : Line} (h : line.IsGuard) : line.role ≠ .content := by
  have hguards : ∀ t ∈ Line.guardTexts, Line.role t ≠ .content ∧ Line.trimmed t = t := by decide
  obtain ⟨hrole, htrimmed⟩ := hguards line.trimmed h
  rwa [Line.role_of_trimmed htrimmed] at hrole

namespace Text

/-- A text that takes part in the nesting as another one is accepted like that one. -/
theorem KeepsLines.scan_eq {t t' : Text} (h : KeepsLines t t') (blanks : Bool)
    (stack : List Frame) : scan blanks stack (lines t') = scan blanks stack (lines t) :=
  scan_congr h.shape blanks stack

theorem isPlain_of_sameShape {ls ls' : List Line} (h : List.Forall₂ Line.SameShape ls ls')
    (hls : ∀ line ∈ ls, line.IsPlain) (hguarded : ∀ line ∈ ls', line.IsGuardedText) :
    ∀ line ∈ ls', line.IsPlain := by
  intro line hline
  obtain ⟨source, hsource, hshape⟩ := exists_mem_of_forall₂ h hline
  have hrole := hshape.role.trans (hls source hsource).role_eq
  exact (hguarded line hline).resolve_right fun hguard => Line.IsGuard.role_ne hguard hrole

theorem KeepsLines.isPlain {t t' : Text} (h : KeepsLines t t')
    (ht : ∀ line ∈ lines t, line.IsPlain) : ∀ line ∈ lines t', line.IsPlain :=
  isPlain_of_sameShape h.shape ht h.guarded

end Text

namespace Naming

variable {project t : Text} {resource : Resource}
  (hsolid : ∀ c ∈ project, Unicode.isWhiteSpace c = false)

theorem keepsLines_fillManagedBy (ht : ∀ line ∈ lines t, line.IsGuardedText) :
    KeepsLines t (fillManagedBy t) := by
  constructor
  · rw [lines_fillManagedBy, List.forall₂_map_right_iff, List.forall₂_same]
    exact fun line hline => (keepsShape_fillManagedByLine line (ht line hline)).2
  · intro line hline
    rw [lines_fillManagedBy] at hline
    obtain ⟨source, hsource, rfl⟩ := List.mem_map.1 hline
    exact (keepsShape_fillManagedByLine source (ht source hsource)).1

include hsolid

theorem IsSubstitution.keepsLines {f : Text → Text} (h : IsSubstitution project f)
    (ht : ∀ line ∈ lines t, line.IsGuardedText) : KeepsLines t (f t) :=
  keepsLines_of_isLinewise (h.isLinewise (not_mem_newline_of_solid hsolid)) (h.keepsShape hsolid) ht

theorem keepsLines_fillNamespace (ht : ∀ line ∈ lines t, line.IsGuardedText) :
    KeepsLines t (fillNamespace project t) :=
  (isSubstitution_fillNamespace project).keepsLines hsolid ht

theorem keepsLines_fillKind (resource : Resource) (ht : ∀ line ∈ lines t, line.IsGuardedText) :
    KeepsLines t (fillKind project resource t) := by
  rcases isSubstitution_fillKind_or project resource with h | ⟨-, h⟩
  · exact h.keepsLines hsolid ht
  · exact h ▸ keepsLines_fillMonitor hsolid resource ht

/-- The substitutions of names do not matter for the nesting. -/
theorem scan_fill (resource : Resource) (ht : ∀ line ∈ lines t, line.IsGuardedText)
    (blanks : Bool) (stack : List Frame) :
    scan blanks stack (lines (fill project resource t)) = scan blanks stack (lines t) := by
  have hnamespace := keepsLines_fillNamespace hsolid ht
  have hkind := keepsLines_fillKind hsolid resource hnamespace.guarded
  have hmanaged := keepsLines_fillManagedBy hkind.guarded
  rw [fill, hmanaged.scan_eq, hkind.scan_eq, hnamespace.scan_eq]

end Naming

namespace Deployment

variable {ls ls' : List Line}

theorem grouped_fillValues (h : fillValues ls = .ok ls') (hls : ∀ line ∈ ls, line.IsPlain) :
    Grouped ls' := by
  obtain ⟨ls₁, ls₂, ls₃, ls₄, himage, henv, hpod, hcontainer, hresources⟩ :=
    exists_of_fillValues h
  have hls₁ := Grouped.of_plain (Values.isPlain_fillImage himage hls)
  have hls₂ := (Values.fills_fillEnv henv).grouped Values.isSound_env hls₁
  have hls₃ := (Values.fills_fillPodSecurityContext hpod).grouped
    Values.isSound_podSecurityContext hls₂
  have hls₄ := (Values.fills_fillContainerSecurityContext hcontainer).grouped
    Values.isSound_containerSecurityContext hls₃
  exact (Values.fills_fillResources hresources).grouped Values.isSound_resources hls₄

theorem scan_guardCertificates (h : Grouped ls) :
    scan false [] (guardCertificates ls) = some [] := by
  have hpaths : scan false [] (CertificateGuard.guardPaths none (Values.fillArgs ls)) = some [] :=
    CertificateGuard.scan_guardPaths (Values.scan_fillArgs h)
  exact ItemGuard.scan_guardItems (ItemGuard.scan_guardItems (ItemGuard.scan_guardItems
    (ItemGuard.scan_guardItems hpaths)))

end Deployment

namespace Templater

variable {project t out : Text} {resource : Resource}

theorem scan_settle (hsolid : ∀ c ∈ project, Unicode.isWhiteSpace c = false)
    (ht : ¬ "\x7b\x7b".toList <:+: t) :
    scan true [] (lines (Wrap.settle project resource (Wrap.apply resource t))) = some [] := by
  obtain ⟨hguarded, hscan⟩ := Wrap.scan_apply resource ht
  rw [Wrap.settle, lines_overLines (BlankRuns.areLines_collapse (areLines_lines _)),
    BlankRuns.collapse, scan_collapseFrom, scan_fill hsolid resource hguarded]
  exact hscan

theorem isPlain_of_mem_fillNames (hsolid : ∀ c ∈ project, Unicode.isWhiteSpace c = false)
    (ht : ¬ "\x7b\x7b".toList <:+: t) :
    ∀ line ∈ lines (Deployment.fillNames project t), line.IsPlain := by
  have hplain : ∀ line ∈ lines t, line.IsPlain := fun _ h => isPlain_of_mem_lines ht h
  have hnamespace := keepsLines_fillNamespace hsolid fun line h => .inl (hplain line h)
  exact (keepsLines_fillManagedBy hnamespace.guarded).isPlain (hnamespace.isPlain hplain)

theorem scan_deployment (hsolid : ∀ c ∈ project, Unicode.isWhiteSpace c = false)
    (ht : ¬ "\x7b\x7b".toList <:+: t) {ls : List Line}
    (h : Deployment.fillValues (lines (Deployment.fillNames project t)) = .ok ls) :
    scan true [] (lines (ofLines (BlankRuns.collapse (Deployment.guardCertificates ls)))) =
      some [] := by
  have hlines := Deployment.areLines_fillValues h (areLines_lines _)
  have hgrouped := Deployment.grouped_fillValues h (isPlain_of_mem_fillNames hsolid ht)
  rw [lines_ofLines (BlankRuns.areLines_collapse (Deployment.areLines_guardCertificates hlines)),
    BlankRuns.collapse, scan_collapseFrom]
  exact scan_lenient (Deployment.scan_guardCertificates hgrouped)

/-- The guards in a template are well nested. -/
theorem wellNested_apply (hsolid : ∀ c ∈ project, Unicode.isWhiteSpace c = false)
    (ht : ¬ "\x7b\x7b".toList <:+: t) (h : apply ⟨project⟩ resource t = .ok out) :
    WellNested (lines out) := by
  refine wellNested_of_scan (?_ : scan true [] (lines out) = some [])
  cases hkind : resource.isKind .deployment with
  | false =>
      rw [apply_eq_settle hkind, Except.ok.injEq] at h
      rw [← h]
      exact scan_settle hsolid ht
  | true =>
      obtain ⟨ls, hls, rfl⟩ := (apply_deployment_eq_ok_iff hkind).1 h
      exact scan_deployment hsolid ht hls

/-- A manager without an environment in its values. -/
theorem wellNested_apply_env : ∃ out,
    apply ⟨"demo".toList⟩ ⟨ResourceKind.deployment.text, [], [], []⟩
        "- env:\n  name: manager\n".toList = .ok out ∧ WellNested (lines out) := by
  have hout : apply ⟨"demo".toList⟩ ⟨ResourceKind.deployment.text, [], [], []⟩
        "- env:\n  name: manager\n".toList = .ok (ofLines ["- env:".toList,
      "    \x7b\x7b- if .Values.controllerManager.env \x7d\x7d".toList,
      "    \x7b\x7b- toYaml .Values.controllerManager.env | nindent 4 \x7d\x7d".toList,
      "    \x7b\x7b- else \x7d\x7d".toList,
      "    []".toList,
      "    \x7b\x7b- end \x7d\x7d".toList,
      "  name: manager".toList, []]) := rfl
  exact ⟨_, hout, wellNested_apply (by decide) (by decide) hout⟩

end Templater

end OperatorChart
