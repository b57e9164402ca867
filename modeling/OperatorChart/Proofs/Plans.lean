import Mathlib.Data.List.Forall2
import OperatorChart.Proofs.FileWrites
import OperatorChart.Proofs.Runs
/-!
# Plans of runs

A run that makes a plan has found a valid project and a manifest, and the plan puts out the
templates among what became of its documents. A run that succeeds has performed its plan.
-/

namespace OperatorChart

/-! ## Projects -/

theorem Templater.solid_of_ofProject {name : Text} {templater : Templater}
    (h : ofProject name = .ok templater) :
    ∀ c ∈ templater.project, Unicode.isWhiteSpace c = false := by
  unfold ofProject at h
  split at h
  · cases h
  · split at h
    · cases h
    · rename_i hnone
      cases h
      simpa using hnone

theorem Templater.ne_nil_of_ofProject {name : Text} {templater : Templater}
    (h : ofProject name = .ok templater) : templater.project ≠ [] := by
  unfold ofProject at h
  split at h
  · cases h
  · rename_i hblank
    split at h
    · cases h
    · cases h
      rintro rfl
      exact hblank rfl

theorem Templater.solid_of_ofConfig {text : Text} {templater : Templater}
    (h : ofConfig text = .ok templater) :
    ∀ c ∈ templater.project, Unicode.isWhiteSpace c = false := by
  unfold ofConfig at h
  split at h
  · cases h
  · exact solid_of_ofProject (eq_of_mapError h)

namespace Invocation

variable {invocation : Invocation} {templater : Templater}

theorem solid_of_configured {path : Text} {reading : ReadResult}
    (h : configured path reading = .ok templater) :
    ∀ c ∈ templater.project, Unicode.isWhiteSpace c = false := by
  cases reading with
  | missing => cases h
  | unreadable => cases h
  | text text => exact Templater.solid_of_ofConfig (eq_of_mapError h)

theorem solid_of_templater {config : Option (Text × ReadResult)}
    (h : invocation.templater config = .ok templater) :
    ∀ c ∈ templater.project, Unicode.isWhiteSpace c = false := by
  unfold Invocation.templater at h
  split at h
  · cases h
  · exact Templater.solid_of_ofProject (eq_of_mapError h)
  · exact solid_of_configured h
  · obtain ⟨_, -, hnamed⟩ := exists_of_bind h
    exact Templater.solid_of_ofProject (eq_of_mapError hnamed)

theorem exists_of_plan {manifest : Text} {plan : Plan}
    (h : invocation.plan templater manifest = .ok plan) :
    ∃ fates, templater.fates (Manifest.documents manifest) = .ok fates ∧
      effectsFor (templatesOf fates) invocation.outputDirectory = .ok plan.effects ∧
      plan.summary = Summary.of fates := by
  unfold Invocation.plan at h
  dsimp only at h
  split at h
  · cases h
  obtain ⟨fates, hfates, h⟩ := exists_of_bind h
  obtain ⟨effects, heffects, h⟩ := exists_of_bind h
  cases h
  exact ⟨fates, eq_of_mapError hfates, heffects, rfl⟩

end Invocation

/-! ## What becomes of documents -/

/-- A document that describes a resource is templated, and left out when nothing comes of it. -/
theorem Templater.exists_of_fate {templater : Templater} {document : ManifestDocument}
    {fate : DocumentFate} {resource : Resource} (hresource : document.resource = .ok resource)
    (h : templater.fate document = .ok fate) :
    ∃ text, templater.apply resource document.content = .ok text ∧
      fate = if text.isBlank then .elided resource else .templated resource text := by
  unfold Templater.fate at h
  rw [hresource] at h
  obtain ⟨text, htext, h⟩ := exists_of_bind h
  exact ⟨text, htext, (Except.ok.inj h).symm⟩

theorem Templater.forall₂_of_fates {templater : Templater} {documents : List ManifestDocument}
    {fates : List DocumentFate} (h : templater.fates documents = .ok fates) :
    List.Forall₂ (fun document fate => templater.fate document = .ok fate) documents fates := by
  induction documents generalizing fates with
  | nil =>
      cases h
      exact .nil
  | cons document rest ih =>
      obtain ⟨fate, hfate, h⟩ := exists_of_bind h
      obtain ⟨others, hothers, h⟩ := exists_of_bind h
      cases h
      exact .cons hfate (ih hothers)

theorem exists_of_effectsFor {templates : List Template} {directory : Text}
    {effects : List Effect} (h : effectsFor templates (some directory) = .ok effects) :
    ∃ targets, targetsOf templates = .ok targets ∧
      effects = .makeDirectories directory (.outputDirectory directory) ::
        targets.flatMap (Target.effects directory) := by
  obtain ⟨targets, htargets, h⟩ := exists_of_bind h
  exact ⟨targets, eq_of_mapError htargets, (Except.ok.inj h).symm⟩

/-! ## Runs -/

namespace Workspace

variable {workspace : Workspace} {invocation : Invocation}

theorem exists_of_prepare {plan : Plan} (h : (invocation.prepare host workspace).1 = .ok plan) :
    ∃ templater manifest fates,
      invocation.templater (workspace.configReading invocation) = .ok templater ∧
      workspace.manifestReading invocation = .text manifest ∧
      templater.fates (Manifest.documents manifest) = .ok fates ∧
      effectsFor (templatesOf fates) invocation.outputDirectory = .ok plan.effects ∧
      plan.summary = Summary.of fates := by
  rw [prepare_eq] at h
  obtain ⟨templater, htemplater, h⟩ := exists_of_bind h
  obtain ⟨manifest, hmanifest, h⟩ := exists_of_bind h
  obtain ⟨fates, hfates, heffects, hsummary⟩ := Invocation.exists_of_plan h
  refine ⟨templater, manifest, fates, htemplater, ?_, hfates, heffects, hsummary⟩
  cases hreading : workspace.manifestReading invocation with
  | missing => rw [hreading] at hmanifest; cases hmanifest
  | unreadable => rw [hreading] at hmanifest; cases hmanifest
  | text text =>
      rw [hreading] at hmanifest
      cases hmanifest
      rfl

theorem exists_of_run {summary : Summary} (h : (workspace.run invocation).1 = .ok summary) :
    ∃ plan, (invocation.prepare host workspace).1 = .ok plan ∧ plan.summary = summary ∧
      Effect.performAll host plan.effects workspace = (none, (workspace.run invocation).2) := by
  rw [run_eq] at h ⊢
  cases hplan : (invocation.prepare host workspace).1 with
  | error failure => rw [hplan] at h; cases h
  | ok plan =>
      rw [hplan] at h
      dsimp only at h ⊢
      cases hfault : (Effect.performAll host plan.effects workspace).1 with
      | some failure => rw [hfault] at h; cases h
      | none =>
          rw [hfault] at h
          cases h
          exact ⟨plan, rfl, rfl, Prod.ext hfault rfl⟩

end Workspace

end OperatorChart
