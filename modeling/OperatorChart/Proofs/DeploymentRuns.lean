import OperatorChart.Proofs.ArgsEdit
import OperatorChart.Proofs.ImageEdit
import OperatorChart.Proofs.ItemNesting
import OperatorChart.Proofs.Runs
/-!
# Runs of the passes on a deployment

A deployment has no guard of its own. Templating substitutes names, looks fields of the manager
up in the chart's values, guards what depends on certificates, and removes blank lines next to
guards; from the second step on it works on the same list of lines.
-/

namespace OperatorChart

open Text

namespace Deployment

/-- The lines of a deployment with the fields of the manager looked up in the values. -/
def fillValues (ls : List Line) : Except EditError (List Line) := do
  let ls ← Values.fillImage ls
  let ls ← Values.fillEnv ls
  let ls ← Values.fillPodSecurityContext ls
  let ls ← Values.fillContainerSecurityContext ls
  Values.fillResources ls

/-- The lines of a deployment with its arguments rebuilt and its certificates guarded. -/
def guardCertificates (ls : List Line) : List Line :=
  let ls := CertificateGuard.guardPaths none (Values.fillArgs ls)
  let ls := ItemGuard.webhookVolume.apply (ItemGuard.webhookVolumeMount.apply ls)
  ItemGuard.metricsVolume.apply (ItemGuard.metricsVolumeMount.apply ls)

def fillNames (project text : Text) : Text :=
  Naming.fillManagedBy (Naming.fillNamespace project text)

variable {ls ls' : List Line}

theorem areLines_guardCertificates (h : AreLines ls) : AreLines (guardCertificates ls) := by
  have hargs := Values.areLines_fillArgs h
  have hpaths := CertificateGuard.areLines_guardPaths hargs
  have hwebhook := ItemGuard.webhookVolume.areLines_apply
    (ItemGuard.webhookVolumeMount.areLines_apply hpaths)
  exact ItemGuard.metricsVolume.areLines_apply
    (ItemGuard.metricsVolumeMount.areLines_apply hwebhook)

theorem exists_of_fillValues (h : fillValues ls = .ok ls') : ∃ ls₁ ls₂ ls₃ ls₄,
    Values.fillImage ls = .ok ls₁ ∧ Values.fillEnv ls₁ = .ok ls₂ ∧
      Values.fillPodSecurityContext ls₂ = .ok ls₃ ∧
      Values.fillContainerSecurityContext ls₃ = .ok ls₄ ∧ Values.fillResources ls₄ = .ok ls' := by
  obtain ⟨ls₁, himage, h⟩ := exists_of_bind h
  obtain ⟨ls₂, henv, h⟩ := exists_of_bind h
  obtain ⟨ls₃, hpod, h⟩ := exists_of_bind h
  obtain ⟨ls₄, hcontainer, h⟩ := exists_of_bind h
  exact ⟨ls₁, ls₂, ls₃, ls₄, himage, henv, hpod, hcontainer, h⟩

theorem areLines_fillValues (h : fillValues ls = .ok ls') (hls : AreLines ls) : AreLines ls' := by
  obtain ⟨ls₁, ls₂, ls₃, ls₄, himage, henv, hpod, hcontainer, hresources⟩ :=
    exists_of_fillValues h
  have hls₁ := Values.areLines_fillImage himage hls
  have hls₂ := (Values.fills_fillEnv henv).areLines Values.isSound_env hls₁
  have hls₃ := (Values.fills_fillPodSecurityContext hpod).areLines
    Values.isSound_podSecurityContext hls₂
  have hls₄ := (Values.fills_fillContainerSecurityContext hcontainer).areLines
    Values.isSound_containerSecurityContext hls₃
  exact (Values.fills_fillResources hresources).areLines Values.isSound_resources hls₄

end Deployment

namespace Wrap

variable {resource : Resource}

theorem action_of_deployment (h : resource.isKind .deployment = true) :
    action resource = .keep := by
  cases resource
  rw [Resource.isKind, beq_iff_eq] at h
  dsimp only at h
  subst h
  rfl

theorem apply_of_deployment (h : resource.isKind .deployment = true) (t : Text) :
    apply resource t = t := by
  rw [apply, action_of_deployment h]

end Wrap

namespace Templater

variable {project : Text} {resource : Resource}

section Runs

variable {context : PassContext} {name : String} {rest : List Pass} {ls : List Line}

theorem scope_ofText (scope : PassScope) (f : PassContext → Text → Text) :
    (Pass.ofText name scope f).scope = scope := rfl

theorem scope_ofEdit (f : List Line → Except EditError (List Line)) :
    (Pass.ofEdit name f).scope = .kind .deployment := rfl

theorem scope_ofLines (f : List Line → List Line) :
    (Pass.ofLines name f).scope = .kind .deployment := rfl

theorem runAll_ofText (scope : PassScope) (f : PassContext → Text → Text) (t : Text) :
    Pass.runAll context (Pass.ofText name scope f :: rest) t =
      Pass.runAll context rest (f context t) := rfl

theorem runAll_ofLines (h : AreLines ls) (f : List Line → List Line) :
    Pass.runAll context (Pass.ofLines name f :: rest) (ofLines ls) =
      Pass.runAll context rest (ofLines (f ls)) := by
  rw [Pass.ofLines, runAll_ofText, overLines, lines_ofLines h]

/-- A pass over lines, and what the other passes do to the lines that it leaves, are together an
edit of lines. -/
theorem runAll_ofEdit (h : AreLines ls) {f k : List Line → Except EditError (List Line)}
    {g : List Line → Text} (hrest : ∀ ls', f ls = .ok ls' →
      Pass.runAll context rest (ofLines ls') = (k ls').map g) :
    Pass.runAll context (Pass.ofEdit name f :: rest) (ofLines ls) = (f ls >>= k).map g := by
  have hrun : Pass.runAll context (Pass.ofEdit name f :: rest) (ofLines ls) =
      ((f (lines (ofLines ls))).map ofLines >>= fun t => Pass.runAll context rest t) := rfl
  rw [hrun, lines_ofLines h]
  cases hf : f ls with
  | error e => rfl
  | ok ls' => exact hrest ls' hf

end Runs

theorem apply_deployment (h : resource.isKind .deployment = true) (t : Text) :
    apply ⟨project⟩ resource t =
      (Deployment.fillValues (lines (Deployment.fillNames project t))).map fun ls =>
        ofLines (BlankRuns.collapse (Deployment.guardCertificates ls)) := by
  have hcertificate := isKind_exclusive h .certificate (by decide)
  have hissuer := isKind_exclusive h .issuer (by decide)
  have hmonitor := isKind_exclusive h .serviceMonitor (by decide)
  have hnames := areLines_lines (Deployment.fillNames project t)
  simp only [apply, Pass.forResource, Pass.all, List.filter_cons, List.filter_nil,
    PassScope.includes, scope_ofText, scope_ofEdit, scope_ofLines, h, hcertificate, hissuer,
    hmonitor, if_true, Bool.false_eq_true, if_false, runAll_ofText, Wrap.apply_of_deployment h]
  rw [← Deployment.fillNames, ← ofLines_lines (Deployment.fillNames project t)]
  rw [lines_ofLines hnames]
  refine runAll_ofEdit hnames fun ls₁ himage => ?_
  have hls₁ := Values.areLines_fillImage himage hnames
  refine runAll_ofEdit hls₁ fun ls₂ henv => ?_
  have hls₂ := (Values.fills_fillEnv henv).areLines Values.isSound_env hls₁
  refine runAll_ofEdit hls₂ fun ls₃ hpod => ?_
  have hls₃ := (Values.fills_fillPodSecurityContext hpod).areLines
    Values.isSound_podSecurityContext hls₂
  refine runAll_ofEdit hls₃ fun ls₄ hcontainer => ?_
  have hls₄ := (Values.fills_fillContainerSecurityContext hcontainer).areLines
    Values.isSound_containerSecurityContext hls₃
  have hbind : Values.fillResources ls₄ = (Values.fillResources ls₄ >>= fun ls => .ok ls) := by
    cases Values.fillResources ls₄ <;> rfl
  rw [hbind]
  refine runAll_ofEdit hls₄ fun ls₅ hresources => ?_
  have hls₅ := (Values.fills_fillResources hresources).areLines Values.isSound_resources hls₄
  have hargs := Values.areLines_fillArgs hls₅
  have hpaths := CertificateGuard.areLines_guardPaths hargs
  have hmount := ItemGuard.webhookVolumeMount.areLines_apply hpaths
  have hvolume := ItemGuard.webhookVolume.areLines_apply hmount
  have hmetrics := ItemGuard.metricsVolumeMount.areLines_apply hvolume
  rw [runAll_ofLines hls₅, runAll_ofLines hargs, runAll_ofLines hpaths, runAll_ofLines hmount,
    runAll_ofLines hvolume, runAll_ofLines hmetrics, runAll_ofText, overLines,
    lines_ofLines (ItemGuard.metricsVolume.areLines_apply hmetrics)]
  rfl

theorem apply_deployment_eq_ok_iff (h : resource.isKind .deployment = true) {t out : Text} :
    apply ⟨project⟩ resource t = .ok out ↔
      ∃ ls, Deployment.fillValues (lines (Deployment.fillNames project t)) = .ok ls ∧
        out = ofLines (BlankRuns.collapse (Deployment.guardCertificates ls)) := by
  rw [apply_deployment h]
  cases Deployment.fillValues (lines (Deployment.fillNames project t)) with
  | error e =>
      constructor
      · intro hout
        cases hout
      · rintro ⟨ls, hls, -⟩
        cases hls
  | ok ls =>
      constructor
      · intro hout
        exact ⟨ls, rfl, (Except.ok.inj hout).symm⟩
      · rintro ⟨ls', hls, rfl⟩
        cases hls
        rfl

end Templater

end OperatorChart
