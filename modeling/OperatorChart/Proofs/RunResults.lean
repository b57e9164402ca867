import OperatorChart.Proofs.DocumentRuns
import OperatorChart.Proofs.TargetFiles
/-!
# Results of runs

A run accounts for every document of its manifest: what describes no resource is skipped, a
namespace is left out, and everything else becomes a template. Main statements: what a run counts
and puts out, and that the templates it prints can be cut apart again.
-/

namespace OperatorChart

open Text

/-! ## What becomes of a document -/

/-- Whether a fate is the one of a document: skipped exactly when it describes no resource, left
out exactly when it describes a namespace, and otherwise templated. -/
structure DocumentFate.IsOf (templater : Templater) (document : ManifestDocument)
    (fate : DocumentFate) : Prop where
  skipped : fate.isSkipped = true ↔ ∃ reason, document.resource = .error reason
  elided : fate.isElided = true ↔
    ∃ resource, document.resource = .ok resource ∧ resource.kind = "Namespace".toList
  templated : ∀ template, fate.template? = some template ↔
    document.resource = .ok template.resource ∧ template.resource.kind ≠ "Namespace".toList ∧
      templater.apply template.resource document.content = .ok template.text

theorem Resource.isKind_namespace_iff {resource : Resource} :
    resource.isKind .namespaceObject = true ↔ resource.kind = "Namespace".toList :=
  beq_iff_eq

namespace Templater

variable {templater : Templater} {document : ManifestDocument} {fate : DocumentFate}

theorem isOf_fate (hsolid : ∀ c ∈ templater.project, Unicode.isWhiteSpace c = false)
    (hdocument : Manifest.IsDocument document.content)
    (h : templater.fate document = .ok fate) : fate.IsOf templater document := by
  cases hresource : document.resource with
  | error reason =>
      rw [Templater.fate, hresource] at h
      cases h
      constructor <;> simp [DocumentFate.isSkipped, DocumentFate.isElided,
        DocumentFate.template?, hresource]
  | ok resource =>
      obtain ⟨text, htext, hfate⟩ := exists_of_fate hresource h
      have hcontent : document.content.isBlank = false := by
        obtain ⟨line, hline, hidle⟩ := Manifest.hasContent_iff.1 hdocument.content
        exact isBlank_eq_false_iff.2 ⟨line, hline, Line.not_isBlank_of_not_isIdle hidle⟩
      have hblank := (isBlank_apply_iff hsolid hcontent htext).trans Resource.isKind_namespace_iff
      by_cases hnamespace : resource.kind = "Namespace".toList
      · rw [if_pos (hblank.2 hnamespace)] at hfate
        subst hfate
        refine ⟨by simp [DocumentFate.isSkipped, hresource],
          by simp [DocumentFate.isElided, hresource, hnamespace], fun template => ?_⟩
        constructor
        · intro htemplate
          cases htemplate
        · rintro ⟨hsame, hother, -⟩
          rw [hresource, Except.ok.injEq] at hsame
          exact absurd (hsame ▸ hnamespace) hother
      · rw [if_neg (mt hblank.1 hnamespace)] at hfate
        subst hfate
        refine ⟨by simp [DocumentFate.isSkipped, hresource],
          by simpa [DocumentFate.isElided, hresource] using hnamespace, fun template => ?_⟩
        constructor
        · intro htemplate
          cases htemplate
          exact ⟨hresource, hnamespace, htext⟩
        · rintro ⟨hsame, -, hother⟩
          rw [hresource, Except.ok.injEq] at hsame
          rw [← hsame, htext, Except.ok.injEq] at hother
          rw [DocumentFate.template?, hsame, hother]

theorem forall₂_isOf {manifest : Text} {fates : List DocumentFate}
    (hsolid : ∀ c ∈ templater.project, Unicode.isWhiteSpace c = false)
    (h : templater.fates (Manifest.documents manifest) = .ok fates) :
    List.Forall₂ (fun document fate => fate.IsOf templater document)
      (Manifest.documents manifest) fates := by
  have hdocuments : ∀ document ∈ Manifest.documents manifest,
      Manifest.IsDocument document.content := fun _ => Manifest.isDocument_of_mem_documents
  have hfates := forall₂_of_fates h
  clear h
  generalize Manifest.documents manifest = documents at hdocuments hfates ⊢
  induction hfates with
  | nil => exact .nil
  | cons hfate _ ih =>
      rw [List.forall_mem_cons] at hdocuments
      exact .cons (isOf_fate hsolid hdocuments.1 hfate) (ih hdocuments.2)

end Templater

/-! ## Counts -/

theorem length_eq_of_fates (fates : List DocumentFate) :
    (templatesOf fates).length + fates.countP (·.isElided) + fates.countP (·.isSkipped) =
      fates.length := by
  induction fates with
  | nil => rfl
  | cons fate rest ih =>
      cases fate with
      | skipped reason =>
          have htemplates : templatesOf (.skipped reason :: rest) = templatesOf rest := rfl
          rw [htemplates, List.countP_cons_of_neg Bool.false_ne_true, List.countP_cons_of_pos rfl,
            List.length_cons]
          omega
      | elided resource =>
          have htemplates : templatesOf (.elided resource :: rest) = templatesOf rest := rfl
          rw [htemplates, List.countP_cons_of_pos rfl, List.countP_cons_of_neg Bool.false_ne_true,
            List.length_cons]
          omega
      | templated resource text =>
          have htemplates : templatesOf (.templated resource text :: rest) =
              ⟨resource, text⟩ :: templatesOf rest := rfl
          rw [htemplates, List.countP_cons_of_neg Bool.false_ne_true,
            List.countP_cons_of_neg Bool.false_ne_true, List.length_cons, List.length_cons]
          omega

theorem exists_of_mem_templatesOf_isOf {templater : Templater} {documents : List ManifestDocument}
    {fates : List DocumentFate}
    (h : List.Forall₂ (fun document fate => DocumentFate.IsOf templater document fate)
      documents fates) {template : Template} (htemplate : template ∈ templatesOf fates) :
    ∃ document ∈ documents, document.resource = .ok template.resource ∧
      template.resource.kind ≠ "Namespace".toList ∧
      templater.apply template.resource document.content = .ok template.text := by
  obtain ⟨fate, hfate, hsome⟩ := List.mem_filterMap.1 htemplate
  obtain ⟨document, hdocument, hof⟩ := exists_mem_of_forall₂ h hfate
  exact ⟨document, hdocument, (hof.templated template).1 hsome⟩

theorem streamOf_eq_intercalate (templates : List Template) :
    streamOf templates = "---\n".toList.intercalate (templates.map (·.text)) := by
  induction templates with
  | nil => rfl
  | cons template rest ih =>
      cases rest with
      | nil => exact List.intercalate_singleton.symm
      | cons next rest =>
          calc
            streamOf (template :: next :: rest) =
                template.text ++ "---\n".toList ++ streamOf (next :: rest) := rfl
            _ = template.text ++ "---\n".toList ++
                "---\n".toList.intercalate ((next :: rest).map (·.text)) := by rw [ih]
            _ = "---\n".toList.intercalate ((template :: next :: rest).map (·.text)) :=
                List.intercalate_cons_cons.symm

namespace Workspace

variable {workspace : Workspace} {invocation : Invocation} {summary : Summary}

theorem run_of_effectsFor_none {templates : List Template} {effects : List Effect}
    {workspace' : Workspace} (heffects : effectsFor templates none = .ok effects)
    (hperform : Effect.performAll host effects workspace = (none, workspace')) :
    workspace' = (workspace.print (streamOf templates)).2 := by
  cases heffects
  rw [performAll_print] at hperform
  exact (congrArg Prod.snd hperform).symm

/-- A run that succeeds accounts for every document of its manifest and puts out what is neither
skipped nor a namespace, in the order of the documents: as one stream, or each in the file of its
own. The rest is not lost to templating either, which empties no text of another kind. -/
theorem run_accounts :
    (∀ (workspace : Workspace) (invocation : Invocation) summary,
      (workspace.run invocation).1 = .ok summary →
      ∃ templater manifest fates templates,
        invocation.templater (workspace.configReading invocation) = .ok templater ∧
        workspace.manifestReading invocation = .text manifest ∧
        List.Forall₂ (fun document fate => DocumentFate.IsOf templater document fate)
          (Manifest.documents manifest) fates ∧
        fates.filterMap DocumentFate.template? = templates ∧
        summary.templated = templates.length ∧
        summary.elided = fates.countP (·.isElided) ∧
        summary.skipped = fates.countP (·.isSkipped) ∧
        summary.templated + summary.elided + summary.skipped =
          (Manifest.documents manifest).length ∧
        (invocation.outputDirectory = none →
          (workspace.run invocation).2.tree = workspace.tree ∧
          (workspace.run invocation).2.printed = workspace.printed ++
            "---\n".toList.intercalate (templates.map (·.text))) ∧
        ∀ directory, invocation.outputDirectory = some directory → ∃ targets,
          List.Forall₂ (fun template target => Target.IsOf target template) templates targets ∧
          Wrote directory targets workspace (workspace.run invocation).2) ∧
      ∀ name templater resource text out, Templater.ofProject name = .ok templater →
        (∃ line ∈ lines text, line.isBlank = false) →
        templater.apply resource text = .ok out →
        ((∃ line ∈ lines out, line.isBlank = false) ↔ resource.kind ≠ "Namespace".toList) := by
  constructor
  · intro workspace invocation summary h
    obtain ⟨plan, hplan, hsummary, hperform⟩ := exists_of_run h
    obtain ⟨templater, manifest, fates, htemplater, hmanifest, hfates, heffects, hcounts⟩ :=
      exists_of_prepare hplan
    have hdocuments := Templater.forall₂_isOf (Invocation.solid_of_templater htemplater) hfates
    rw [hcounts] at hsummary
    subst hsummary
    refine ⟨templater, manifest, fates, templatesOf fates, htemplater, hmanifest, hdocuments, rfl,
      rfl, rfl, rfl, ?_, fun hdirectory => ?_, fun directory hdirectory => ?_⟩
    · rw [hdocuments.length_eq]
      exact length_eq_of_fates fates
    · rw [hdirectory] at heffects
      rw [run_of_effectsFor_none heffects hperform, print, streamOf_eq_intercalate]
      exact ⟨rfl, rfl⟩
    · rw [hdirectory] at heffects
      obtain ⟨targets, htargets, hwrote⟩ := wrote_of_effectsFor heffects hperform
      exact ⟨targets, forall₂_isOf_targetsFrom htargets, hwrote⟩
  · intro name templater resource text out htemplater htext h
    have hblank := Templater.isBlank_apply_iff (Templater.solid_of_ofProject htemplater)
      (isBlank_eq_false_iff.2 htext) h
    rw [← isBlank_eq_false_iff, ← Bool.not_eq_true, hblank, Resource.isKind_namespace_iff]

/-- A namespace, two services and a document without a kind, printed and then written. -/
theorem run_accounts_four :
    let manifest := "apiVersion: v1\nkind: Namespace\nmetadata:\n  name: a\n---\n".toList ++
      "apiVersion: v1\nkind: Service\nmetadata:\n  name: b\n---\nname: c\n---\n".toList ++
      "apiVersion: v1\nkind: Service\nmetadata:\n  name: d\n".toList
    let workspace : Workspace := ⟨FileTree.empty, [], .text manifest, []⟩
    let invocation : Invocation := ⟨['-'], some "demo".toList, none, none⟩
    let invocation' : Invocation := ⟨['-'], some "demo".toList, none, some "out".toList⟩
    (∃ fates templates,
      List.Forall₂ (fun document fate => DocumentFate.IsOf ⟨"demo".toList⟩ document fate)
        (Manifest.documents manifest) fates ∧
      fates.filterMap DocumentFate.template? = templates ∧ 2 = templates.length ∧
      1 = fates.countP (·.isElided) ∧ 1 = fates.countP (·.isSkipped) ∧
      (workspace.run invocation).2.printed = workspace.printed ++
        "---\n".toList.intercalate (templates.map (·.text))) ∧
    (workspace.run invocation).2.printed =
      "apiVersion: v1\nkind: Service\nmetadata:\n  name: b\n---\n".toList ++
        "apiVersion: v1\nkind: Service\nmetadata:\n  name: d\n".toList ∧
    (∃ templates targets, 2 = templates.length ∧
      List.Forall₂ (fun template target => Target.IsOf target template) templates targets ∧
      Wrote "out".toList targets workspace (workspace.run invocation').2) ∧
    (workspace.run invocation').2.printed = "wrote out/templates/service/b.yaml\n".toList ++
      "wrote out/templates/service/d.yaml\n".toList ∧
    (workspace.run invocation').2.readFile "out/templates/service/b.yaml".toList =
      .text "apiVersion: v1\nkind: Service\nmetadata:\n  name: b\n".toList ∧
    (workspace.run invocation').2.readFile "out/templates/service/d.yaml".toList =
      .text "apiVersion: v1\nkind: Service\nmetadata:\n  name: d\n".toList := by
  intro manifest workspace invocation invocation'
  have hprinted : ((workspace.run invocation).1, (workspace.run invocation).2.printed) =
      (.ok ⟨2, 1, 1⟩, "apiVersion: v1\nkind: Service\nmetadata:\n  name: b\n---\n".toList ++
        "apiVersion: v1\nkind: Service\nmetadata:\n  name: d\n".toList) := by decide +kernel
  have hwritten : ((workspace.run invocation').1, (workspace.run invocation').2.printed,
      (workspace.run invocation').2.readFile "out/templates/service/b.yaml".toList,
      (workspace.run invocation').2.readFile "out/templates/service/d.yaml".toList) =
      (.ok ⟨2, 1, 1⟩, "wrote out/templates/service/b.yaml\n".toList ++
          "wrote out/templates/service/d.yaml\n".toList,
        .text "apiVersion: v1\nkind: Service\nmetadata:\n  name: b\n".toList,
        .text "apiVersion: v1\nkind: Service\nmetadata:\n  name: d\n".toList) := by
    decide +kernel
  simp only [Prod.mk.injEq] at hprinted hwritten
  refine ⟨?_, hprinted.2, ?_, hwritten.2⟩
  · obtain ⟨templater, manifest, fates, templates, htemplater, hmanifest, hfates, htemplates,
      htemplated, helided, hskipped, -, hstream, -⟩ := run_accounts.1 _ _ _ hprinted.1
    cases htemplater
    cases hmanifest
    exact ⟨fates, templates, hfates, htemplates, htemplated, helided, hskipped, (hstream rfl).2⟩
  · obtain ⟨_, _, _, templates, -, -, -, -, htemplated, -, -, -, -, hfiles⟩ :=
      run_accounts.1 _ _ _ hwritten.1
    obtain ⟨targets, htargets, hwrote⟩ := hfiles _ rfl
    exact ⟨templates, targets, htemplated, htargets, hwrote⟩

/-- What a run prints is cut into exactly the templates that it printed. -/
theorem documents_of_printed (hdirectory : invocation.outputDirectory = none)
    (h : (workspace.run invocation).1 = .ok summary) :
    ∃ templater manifest fates output,
      invocation.templater (workspace.configReading invocation) = .ok templater ∧
      workspace.manifestReading invocation = .text manifest ∧
      templater.fates (Manifest.documents manifest) = .ok fates ∧
      (workspace.run invocation).2.printed = workspace.printed ++ output ∧
      Manifest.documents output = ((templatesOf fates).map (·.text)).zipIdx.map
        (fun (text, index) => ⟨index, text⟩) ∧
      (Manifest.documents output).length = summary.templated ∧
      ∀ template ∈ templatesOf fates, Manifest.IsDocument template.text := by
  obtain ⟨plan, hplan, hsummary, hperform⟩ := exists_of_run h
  obtain ⟨templater, manifest, fates, htemplater, hmanifest, hfates, heffects, hcounts⟩ :=
    exists_of_prepare hplan
  have hsolid := Invocation.solid_of_templater htemplater
  have htemplates : ∀ template ∈ templatesOf fates, Manifest.IsDocument template.text := by
    intro template htemplate
    obtain ⟨document, hdocument, -, hnamespace, happly⟩ :=
      exists_of_mem_templatesOf_isOf (Templater.forall₂_isOf hsolid hfates) htemplate
    rw [Ne, ← Resource.isKind_namespace_iff, Bool.not_eq_true] at hnamespace
    exact Templater.isDocument_apply hsolid hnamespace
      (Manifest.isDocument_of_mem_documents hdocument) happly
  rw [hdirectory] at heffects
  have hprinted := run_of_effectsFor_none heffects hperform
  have hstream := Manifest.documents_streamOf htemplates
  refine ⟨templater, manifest, fates, streamOf (templatesOf fates), htemplater, hmanifest, hfates,
    ?_, hstream, ?_, htemplates⟩
  · rw [hprinted]
    rfl
  · rw [hstream, ← hsummary, hcounts]
    simp [Summary.of]

/-- Two services from the standard input. -/
theorem documents_of_printed_two : ∃ output,
    (run ⟨FileTree.empty, [], .text
          ("apiVersion: v1\nkind: Service\nmetadata:\n  name: a\n---\n".toList ++
            "apiVersion: v1\nkind: Service\nmetadata:\n  name: b".toList), []⟩
        ⟨['-'], some "demo".toList, none, none⟩).2.printed = output ∧
      (Manifest.documents output).length = 2 := by
  have hrun : (run ⟨FileTree.empty, [], .text
          ("apiVersion: v1\nkind: Service\nmetadata:\n  name: a\n---\n".toList ++
            "apiVersion: v1\nkind: Service\nmetadata:\n  name: b".toList), []⟩
        ⟨['-'], some "demo".toList, none, none⟩).1 = .ok ⟨2, 0, 0⟩ := by decide +kernel
  obtain ⟨_, _, _, output, -, -, -, hprinted, -, hlength, -⟩ := documents_of_printed rfl hrun
  exact ⟨output, hprinted, hlength⟩

end Workspace

end OperatorChart
