import OperatorChart.Proofs.LowerCasePaths
import OperatorChart.Proofs.Plans
import OperatorChart.Proofs.Targets
/-!
# Where templates are written

The path of a template is read from the chart's directory: into the templates, then along the
kind, then to a file named after the resource. The name is checked to be a file name; the kind
is used as it is.
-/

namespace OperatorChart

open OperatorChart.Path

/-! ## The path of a template -/

namespace Resource

variable {resource : Resource} {path : Text}

def leaf (resource : Resource) : Text :=
  resource.name ++ ".yaml".toList

theorem targetPath_eq_ok_iff : resource.targetPath = .ok path ↔ isFileName resource.name = true ∧
    path = append (append templatesDirectory resource.kind.lowerCase) resource.leaf := by
  unfold targetPath
  split
  · rename_i h
    simp [h, leaf, eq_comm]
  · rename_i h
    simp [h]

theorem moves_leaf (h : isFileName resource.name = true) :
    moves resource.leaf = [.enter resource.leaf] ∧ isAbsolute resource.leaf = false := by
  simp only [isFileName, Bool.and_eq_true, Bool.not_eq_true', List.isEmpty_eq_false_iff,
    List.contains_eq_mem, decide_eq_false_iff_not] at h
  obtain ⟨⟨⟨⟨hname, -⟩, -⟩, hslash⟩, -⟩ := h
  obtain ⟨c, rest, hrest⟩ := List.exists_cons_of_ne_nil hname
  have hlength : 5 < resource.leaf.length := by
    rw [leaf, hrest]
    simp
  have hleaf : '/' ∉ resource.leaf := by
    rw [leaf, List.mem_append, not_or]
    exact ⟨hslash, by decide⟩
  constructor
  · apply moves_of_not_mem hleaf
    all_goals
      intro heq
      rw [heq] at hlength
      simp at hlength
  · rw [leaf, hrest, isAbsolute]
    rw [hrest] at hslash
    simp only [List.mem_cons, not_or] at hslash
    simpa using Ne.symm hslash.1

/-- The kind alone decides whether the path of a template stays below the templates. -/
theorem staysUnder_targetPath_iff (h : resource.targetPath = .ok path) :
    StaysUnder templatesDirectory path ↔ StaysInside resource.kind := by
  obtain ⟨hname, rfl⟩ := targetPath_eq_ok_iff.1 h
  obtain ⟨hmoves, hleaf⟩ := moves_leaf hname
  rw [← staysInside_lowerCase_iff]
  generalize resource.kind.lowerCase = kind
  have hbase : append templatesDirectory kind ≠ [] := append_ne_nil (by decide) kind
  cases hkind : isAbsolute kind with
  | true =>
      have habsolute := isAbsolute_append hbase hleaf
      rw [append_absolute _ hkind, hkind] at habsolute
      rw [append_absolute _ hkind]
      simp [StaysUnder, StaysInside, habsolute, hkind]
  | false =>
      have htemplates : moves templatesDirectory = [.enter templatesDirectory] := by decide
      have hrelative : isAbsolute (append (append templatesDirectory kind) resource.leaf) =
          false := by
        rw [isAbsolute_append hbase hleaf, isAbsolute_append (by decide) hkind]
        rfl
      have hdescend : (descend [] (moves kind ++ [.enter resource.leaf])).isSome =
          (descend [] (moves kind)).isSome := by
        rw [descend_append]
        cases descend [] (moves kind) <;> rfl
      rw [StaysUnder, moves_append _ hleaf, moves_append _ hkind, hmoves, htemplates, hrelative,
        StaysInside, hkind, ← hdescend]
      simp

end Resource

/-! ## Runs that write a chart -/

namespace Workspace

variable {workspace : Workspace}

def chartPlace (workspace : Workspace) (directory : Text) : Location :=
  land (FileTree.origin workspace.directory directory) (moves directory)

def templatesPlace (workspace : Workspace) (directory : Text) : Location :=
  workspace.chartPlace directory ++ [templatesDirectory]

theorem origin_append {path : Text} (directory : Text) (h : isAbsolute path = false) :
    FileTree.origin workspace.directory (append directory path) =
      FileTree.origin workspace.directory directory := by
  by_cases hempty : directory = []
  · rw [hempty, append_nil h, FileTree.origin, h]
    rfl
  · rw [FileTree.origin, FileTree.origin, isAbsolute_append hempty h]

theorem templatesPlace_prefix {directory path : Text} (h : StaysUnder templatesDirectory path) :
    workspace.templatesPlace directory <+:
      land (FileTree.origin workspace.directory (append directory path))
        (moves (append directory path)) := by
  obtain ⟨hrelative, rest, hmoves, hdescend⟩ := h
  obtain ⟨place, hplace⟩ := Option.isSome_iff_exists.1 hdescend
  have hland := land_of_descend (workspace.templatesPlace directory) hplace
  rw [List.append_nil] at hland
  rw [origin_append _ hrelative, moves_append _ hrelative, hmoves, land_append, land, ← chartPlace,
    ← templatesPlace, hland]
  exact List.prefix_append _ place

end Workspace

theorem exists_of_mem_targetsFrom {seen : List (Bool × List PathStep)}
    {templates : List Template} {targets : List Target}
    (h : targetsFrom seen templates = .ok targets) {target : Target} (htarget : target ∈ targets) :
    ∃ template ∈ templates, template.resource.targetPath = .ok target.path := by
  obtain ⟨template, htemplate, hof⟩ := Text.exists_mem_of_forall₂ (forall₂_isOf_targetsFrom h) htarget
  exact ⟨template, htemplate, hof.path⟩

theorem resource_of_fate {templater : Templater} {document : ManifestDocument}
    {fate : DocumentFate} (h : templater.fate document = .ok fate) {template : Template}
    (htemplate : fate.template? = some template) : document.resource = .ok template.resource := by
  cases hresource : document.resource with
  | error =>
      rw [Templater.fate, hresource] at h
      cases h
      cases htemplate
  | ok resource =>
      obtain ⟨text, -, rfl⟩ := Templater.exists_of_fate hresource h
      split at htemplate
      · cases htemplate
      · cases htemplate
        rfl

theorem exists_of_mem_templatesOf {templater : Templater} {documents : List ManifestDocument}
    {fates : List DocumentFate} (h : templater.fates documents = .ok fates) {template : Template}
    (htemplate : template ∈ templatesOf fates) :
    ∃ document ∈ documents, document.resource = .ok template.resource := by
  obtain ⟨fate, hmem, hsome⟩ := List.mem_filterMap.1 htemplate
  obtain ⟨document, hdocument, hfate⟩ :=
    Text.exists_mem_of_forall₂ (Templater.forall₂_of_fates h) hmem
  exact ⟨document, hdocument, resource_of_fate hfate hsome⟩

theorem writesBelow_of_effectsFor {workspace : Workspace} {templates : List Template}
    {directory : Text} {effects : List Effect}
    (heffects : effectsFor templates (some directory) = .ok effects)
    (htemplates : ∀ template ∈ templates, StaysInside template.resource.kind) :
    ∀ effect ∈ effects,
      effect.WritesBelow (workspace.templatesPlace directory) workspace.directory := by
  obtain ⟨targets, htargets, rfl⟩ := exists_of_effectsFor heffects
  refine List.forall_mem_cons.2 ⟨trivial, fun effect heffect => ?_⟩
  obtain ⟨target, htarget, heffect⟩ := List.mem_flatMap.1 heffect
  obtain ⟨template, htemplate, hpath⟩ := exists_of_mem_targetsFrom htargets htarget
  have hunder := (Resource.staysUnder_targetPath_iff hpath).2 (htemplates template htemplate)
  simp only [Target.effects, List.mem_cons, List.not_mem_nil, or_false] at heffect
  rcases heffect with rfl | rfl | rfl
  · exact trivial
  · exact Workspace.templatesPlace_prefix hunder
  · exact trivial

namespace Workspace

variable {workspace : Workspace} {invocation : Invocation}

theorem effects_of_prepare {plan : Plan}
    (h : (invocation.prepare host workspace).1 = .ok plan) :
    ∃ text templates, workspace.manifestReading invocation = .text text ∧
      effectsFor templates invocation.outputDirectory = .ok plan.effects ∧
      ∀ template ∈ templates, ∃ document ∈ Manifest.documents text,
        document.resource = .ok template.resource := by
  obtain ⟨_, text, fates, -, htext, hfates, heffects, -⟩ := exists_of_prepare h
  exact ⟨text, templatesOf fates, htext, heffects, fun _ htemplate =>
    exists_of_mem_templatesOf hfates htemplate⟩

/-- Which templates are written below the templates of the chart: the path of a template stays
there exactly when its kind is a relative path that does not go above its start, and a run on a
manifest with such kinds creates and overwrites files nowhere else. -/
theorem writes_below_templates (resource : Resource) (path : Text) :
    (resource.targetPath = .ok path →
        (StaysUnder templatesDirectory path ↔ StaysInside resource.kind)) ∧
      ∀ (workspace : Workspace) (invocation : Invocation) directory,
        invocation.outputDirectory = some directory →
        (∀ text, workspace.manifestReading invocation = .text text →
          ∀ document ∈ Manifest.documents text, ∀ resource, document.resource = .ok resource →
            StaysInside resource.kind) →
        workspace.tree.SameFilesOutside (workspace.templatesPlace directory)
          (workspace.run invocation).2.tree := by
  refine ⟨Resource.staysUnder_targetPath_iff, ?_⟩
  intro workspace invocation directory hdirectory hkinds
  rw [run_eq]
  cases hplan : (invocation.prepare host workspace).1 with
  | error => exact FileTree.SameFilesOutside.refl _ _
  | ok plan =>
      obtain ⟨text, templates, htext, heffects, htemplates⟩ := effects_of_prepare hplan
      rw [hdirectory] at heffects
      refine (sameOutside_performAll (writesBelow_of_effectsFor heffects ?_)).files
      intro template htemplate
      obtain ⟨document, hdocument, hresource⟩ := htemplates template htemplate
      exact hkinds text htext document hdocument template.resource hresource

/-- The path of a service's template, and a run that writes it and leaves a file of the chart
alone. -/
theorem service_below_templates :
    let manifest := "apiVersion: v1\nkind: Service\nmetadata:\n  name: metrics\n".toList
    let workspace : Workspace := ⟨⟨[(["out".toList], .directory),
      (["out".toList, "Chart.yaml".toList], .file (.text "name: demo\n".toList))]⟩, [],
      .text manifest, []⟩
    let invocation : Invocation := ⟨['-'], some "demo".toList, none, some "out".toList⟩
    (⟨"Service".toList, "v1".toList, "metrics".toList, []⟩ : Resource).targetPath =
        .ok "templates/service/metrics.yaml".toList ∧
      StaysUnder templatesDirectory "templates/service/metrics.yaml".toList ∧
      (workspace.run invocation).2.printed =
        "wrote out/templates/service/metrics.yaml\n".toList ∧
      workspace.tree.SameFilesOutside (workspace.templatesPlace "out".toList)
        (workspace.run invocation).2.tree ∧
      (workspace.run invocation).2.tree.get? ["out".toList, "Chart.yaml".toList] =
        some (.file (.text "name: demo\n".toList)) := by
  intro manifest workspace invocation
  have hpath : (⟨"Service".toList, "v1".toList, "metrics".toList, []⟩ : Resource).targetPath =
      .ok "templates/service/metrics.yaml".toList := rfl
  have hkind : StaysInside "Service".toList := ⟨by decide, by decide⟩
  have hdocuments : (Manifest.documents manifest).map ManifestDocument.resource =
      [.ok ⟨"Service".toList, "v1".toList, "metrics".toList, []⟩] := by decide +kernel
  have hprinted : (workspace.run invocation).2.printed =
      "wrote out/templates/service/metrics.yaml\n".toList := by decide +kernel
  have htree := (writes_below_templates ⟨[], [], [], []⟩ []).2 workspace invocation _ rfl
    (by
      intro text htext document hdocument resource hresource
      cases htext
      have hmem := List.mem_map_of_mem (f := ManifestDocument.resource) hdocument
      rw [hdocuments, hresource, List.mem_singleton, Except.ok.injEq] at hmem
      rw [hmem]
      exact hkind)
  have hchart : ¬ workspace.templatesPlace "out".toList <+:
      ["out".toList, "Chart.yaml".toList] := by decide +kernel
  exact ⟨hpath, ((writes_below_templates _ _).1 hpath).2 hkind, hprinted, htree,
    (htree _ _ hchart).2 (by decide)⟩

/-- The kind `..` leads out of the templates, and a run writes its template there. -/
theorem parent_kind_escapes :
    (⟨"..".toList, "v1".toList, "x".toList, []⟩ : Resource).targetPath =
        .ok "templates/../x.yaml".toList ∧
      ¬ StaysUnder templatesDirectory "templates/../x.yaml".toList ∧
      (run ⟨FileTree.empty, [], .text
          "apiVersion: v1\nkind: ..\nmetadata:\n  name: x\n".toList, []⟩
        ⟨['-'], some "demo".toList, none, some "out".toList⟩).2.tree.get?
          ["out".toList, "x.yaml".toList] =
        some (.file (.text "apiVersion: v1\nkind: ..\nmetadata:\n  name: x\n".toList)) := by
  refine ⟨rfl, ?_, by decide +kernel⟩
  rintro ⟨-, rest, hmoves, hdescend⟩
  have hpath : moves "templates/../x.yaml".toList =
      [.enter templatesDirectory, .parent, .enter "x.yaml".toList] := by decide
  rw [hpath] at hmoves
  cases hmoves
  exact absurd hdescend (by decide)

end Workspace

end OperatorChart
