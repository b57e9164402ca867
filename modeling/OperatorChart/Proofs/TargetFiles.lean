import OperatorChart.Proofs.Targets
import OperatorChart.Proofs.TemplatesDirectory
/-!
# Files of templates

Templates whose paths have different readings are files at different places, as long as no kind
leads anywhere but into a directory of its own. No effect removes a directory, and writing a file
changes no other file. Main statement: when the templates of a chart have been written, each of
them is what its file holds.
-/

namespace OperatorChart

open OperatorChart.Path

/-! ## What stays in a tree -/

namespace FileTree

variable {tree tree' : FileTree} {here place directory : Location} {path : Text}

/-- Whether a tree has all directories of another one, and the same file at a place if there is
one. -/
structure Keeps (place : Location) (tree tree' : FileTree) : Prop where
  directories : ∀ here, tree.isDirectory here = true → tree'.isDirectory here = true
  file : ∀ content, tree.get? place = some (.file content) →
    tree'.get? place = some (.file content)

theorem Keeps.refl (place : Location) (tree : FileTree) : Keeps place tree tree :=
  ⟨fun _ h => h, fun _ h => h⟩

theorem Keeps.trans {tree'' : FileTree} (h : Keeps place tree tree')
    (h' : Keeps place tree' tree'') : Keeps place tree tree'' :=
  ⟨fun here hhere => h'.directories here (h.directories here hhere),
    fun content hcontent => h'.file content (h.file content hcontent)⟩

/-- A path leads to the same place when there are more directories. -/
theorem walk?_of_directories {steps : List PathStep}
    (hdirectories : ∀ here, tree.isDirectory here = true → tree'.isDirectory here = true)
    (h : tree.walk? here steps = some place) : tree'.walk? here steps = some place := by
  induction steps generalizing here with
  | nil => exact h
  | cons step rest ih =>
      cases hhere : tree.isDirectory here with
      | false => cases step <;> simp [walk?, hhere] at h
      | true =>
          have hkept := hdirectories here hhere
          cases step with
          | stay =>
              simp only [walk?, hhere, hkept, Bool.not_true, Bool.false_eq_true, if_false] at h ⊢
              exact ih h
          | parent =>
              simp only [walk?, hhere, hkept, Bool.not_true, Bool.false_eq_true, if_false] at h ⊢
              exact ih h
          | enter name =>
              simp only [walk?, hhere, hkept, Bool.not_true, Bool.false_eq_true, if_false] at h ⊢
              split at h
              · rename_i hname
                rw [if_pos hname]
                exact ih h
              · cases h

theorem locate?_of_directories
    (hdirectories : ∀ here, tree.isDirectory here = true → tree'.isDirectory here = true)
    (h : tree.locate? directory path = some place) : tree'.locate? directory path = some place := by
  unfold locate? at h ⊢
  split at h
  · rename_i hpath
    rw [if_pos hpath]
    exact walk?_of_directories hdirectories h
  · cases h

theorem find?_of_keeps {content : FileContent} (hplace : tree.locate? directory path = some place)
    (h : Keeps place tree tree') (hfind : tree.find? directory path = some (.file content)) :
    tree'.locate? directory path = some place ∧
      tree'.find? directory path = some (.file content) := by
  have hlocated := locate?_of_directories h.directories hplace
  rw [find?, hplace, Option.bind_some] at hfind
  rw [find?, hlocated, Option.bind_some]
  exact ⟨rfl, h.file content hfind⟩

theorem keeps_put_directory (hnone : tree.get? here = none) :
    Keeps place tree (tree.put here .directory) := by
  have hroot : here ≠ [] := by
    rintro rfl
    cases hnone
  constructor
  · intro other hother
    by_cases heq : other = here
    · rw [heq, isDirectory, get?_put_self _ _ hroot]
      rfl
    · rwa [isDirectory, get?_put_of_ne _ _ heq]
  · intro content hcontent
    have hne : place ≠ here := by
      rintro rfl
      rw [hnone] at hcontent
      cases hcontent
    rwa [get?_put_of_ne _ _ hne]

theorem keeps_makeSteps? {steps : List PathStep} (place : Location)
    (h : tree.makeSteps? here steps = some tree') : Keeps place tree tree' := by
  induction steps generalizing tree here with
  | nil =>
      rw [makeSteps?, Option.some.injEq] at h
      exact h ▸ Keeps.refl place tree
  | cons step rest ih =>
      cases step with
      | stay => exact ih h
      | parent => exact ih h
      | enter name =>
          rw [makeSteps?] at h
          split at h
          · cases h
          · split at h
            · rename_i hnone
              exact (keeps_put_directory hnone).trans (ih h)
            · exact ih h
            · cases h

theorem keeps_makeDirectories? (place : Location)
    (h : tree.makeDirectories? directory path = some tree') : Keeps place tree tree' := by
  unfold makeDirectories? at h
  dsimp only at h
  split at h
  · cases h
    exact Keeps.refl place tree
  · split at h
    · cases h
    · split at h
      · obtain ⟨made, hmade, h⟩ := Option.bind_eq_some_iff.1 h
        obtain ⟨location, -, h⟩ := Option.bind_eq_some_iff.1 h
        split at h
        · cases h
          exact keeps_makeSteps? place hmade
        · cases h
      · exact keeps_makeSteps? place h

theorem directories_put_file {content : FileContent} (hfile : tree.isDirectory place = false)
    (hhere : tree.isDirectory here = true) :
    (tree.put place (.file content)).isDirectory here = true := by
  have hne : here ≠ place := by
    rintro rfl
    rw [hfile] at hhere
    cases hhere
  rwa [isDirectory, get?_put_of_ne _ _ hne]

theorem keeps_writeFile? {content : FileContent}
    (hne : place ≠ land (origin directory path) (moves path))
    (h : tree.writeFile? directory path content = some tree') : Keeps place tree tree' := by
  refine ⟨?_, fun content' hcontent => by rwa [get?_of_writeFile? hne h]⟩
  obtain ⟨location, -, hfile, rfl⟩ := exists_of_writeFile? h
  exact fun here => directories_put_file hfile

theorem find?_of_writeFile? {content : FileContent}
    (h : tree.writeFile? directory path content = some tree') :
    tree'.locate? directory path = some (land (origin directory path) (moves path)) ∧
      tree'.find? directory path = some (.file content) := by
  obtain ⟨location, hlocation, hfile, rfl⟩ := exists_of_writeFile? h
  have hroot : location ≠ [] := by
    rintro rfl
    cases hfile
  have hlocated : (tree.put location (.file content)).locate? directory path = some location :=
    locate?_of_directories (fun _ => directories_put_file hfile) hlocation
  rw [find?, hlocated, ← locate?_eq_land hlocation, Option.bind_some, get?_put_self _ _ hroot]
  exact ⟨rfl, rfl⟩

end FileTree

/-! ## What stays in a workspace -/

namespace Workspace

variable {workspace workspace' : Workspace} {directory path text : Text} {effects : List Effect}

def place (workspace : Workspace) (path : Text) : Location :=
  land (FileTree.origin workspace.directory path) (moves path)

/-- Whether a path leads to its place in the tree, and the file there holds a text. -/
structure Holds (workspace : Workspace) (path text : Text) : Prop where
  located : workspace.tree.locate? workspace.directory path = some (workspace.place path)
  found : workspace.tree.find? workspace.directory path = some (.file (.text text))

theorem Holds.readFile (h : workspace.Holds path text) :
    workspace.readFile path = .text text := by
  rw [Workspace.readFile, h.found]

theorem Holds.replaceTree (h : workspace.Holds path text) {result : Option FileTree}
    (hkeeps : ∀ tree, result = some tree →
      FileTree.Keeps (workspace.place path) workspace.tree tree) :
    (workspace.replaceTree result).2.Holds path text := by
  cases result with
  | none => exact h
  | some tree =>
      obtain ⟨hlocated, hfound⟩ := FileTree.find?_of_keeps h.located (hkeeps tree rfl) h.found
      exact ⟨hlocated, hfound⟩

theorem Holds.makeDirectories (h : workspace.Holds path text) (made : Text) :
    (workspace.makeDirectories made).2.Holds path text :=
  h.replaceTree fun _ htree => FileTree.keeps_makeDirectories? _ htree

theorem Holds.writeFile (h : workspace.Holds path text) {written : Text}
    (hne : workspace.place path ≠ workspace.place written) (other : Text) :
    (workspace.writeFile written other).2.Holds path text :=
  h.replaceTree fun _ htree => FileTree.keeps_writeFile? hne htree

theorem Holds.print (h : workspace.Holds path text) (output : Text) :
    (workspace.print output).2.Holds path text :=
  ⟨h.located, h.found⟩

theorem holds_writeFile (h : (workspace.writeFile path text).1 = true) :
    (workspace.writeFile path text).2.Holds path text := by
  rw [Workspace.writeFile] at h ⊢
  cases hwritten : workspace.tree.writeFile? workspace.directory path (.text text) with
  | none =>
      rw [hwritten] at h
      cases h
  | some tree =>
      obtain ⟨hlocated, hfound⟩ := FileTree.find?_of_writeFile? hwritten
      exact ⟨hlocated, hfound⟩

theorem place_replaceTree (workspace : Workspace) (result : Option FileTree) :
    (workspace.replaceTree result).2.place = workspace.place := by
  cases result <;> rfl

theorem printed_replaceTree (workspace : Workspace) (result : Option FileTree) :
    (workspace.replaceTree result).2.printed = workspace.printed := by
  cases result <;> rfl

theorem place_makeDirectories (made : Text) (workspace : Workspace) :
    (workspace.makeDirectories made).2.place = workspace.place :=
  workspace.place_replaceTree _

theorem place_writeFile (written other : Text) (workspace : Workspace) :
    (workspace.writeFile written other).2.place = workspace.place :=
  workspace.place_replaceTree _

/-- What a file holds stays while effects write at other places only. -/
theorem Holds.performAll (h : workspace.Holds path text)
    (hother : ∀ written other, Effect.writeFile written other ∈ effects →
      workspace.place path ≠ workspace.place written) :
    (Effect.performAll host effects workspace).2.Holds path text := by
  induction effects generalizing workspace with
  | nil => exact h
  | cons effect rest ih =>
      have hrest : ∀ {state : Workspace}, state.Holds path text →
          state.place = workspace.place →
          (Effect.performAll host rest state).2.Holds path text := by
        intro state hstate hplace
        refine ih hstate fun written other hmem => ?_
        rw [hplace]
        exact hother written other (List.mem_cons_of_mem effect hmem)
      cases effect with
      | makeDirectories made otherwise =>
          rw [performAll_makeDirectories]
          split
          · exact hrest (h.makeDirectories made) (place_makeDirectories made workspace)
          · exact h.makeDirectories made
      | writeFile written other =>
          have hwritten := h.writeFile (hother written other List.mem_cons_self) other
          rw [performAll_writeFile]
          split
          · exact hrest hwritten (place_writeFile written other workspace)
          · exact hwritten
      | print output =>
          rw [performAll_print]
          exact hrest (h.print output) rfl

/-! ## Targets at their places -/

/-- Whether targets were written one after another and reported in this order. Where several have
one place, the file there holds the last of them; all other files are what they were. -/
structure Wrote (directory : Text) (targets : List Target) (workspace workspace' : Workspace) :
    Prop where
  printed : workspace'.printed = workspace.printed ++ targets.flatMap fun target =>
    "wrote ".toList ++ append directory target.path ++ ['\n']
  holds : ∀ front target back, targets = front ++ target :: back →
    (∀ later ∈ back, workspace.place (append directory later.path) ≠
      workspace.place (append directory target.path)) →
    workspace'.Holds (append directory target.path) target.text
  others : ∀ location content,
    (∀ target ∈ targets, workspace.place (append directory target.path) ≠ location) →
    (workspace'.tree.get? location = some (.file content) ↔
      workspace.tree.get? location = some (.file content))

theorem get?_makeDirectories (made : Text) (workspace : Workspace) (location : Location)
    (content : FileContent) :
    (workspace.makeDirectories made).2.tree.get? location = some (.file content) ↔
      workspace.tree.get? location = some (.file content) := by
  rw [Workspace.makeDirectories]
  cases hmade : workspace.tree.makeDirectories? workspace.directory made with
  | none => exact Iff.rfl
  | some tree => exact FileTree.get?_eq_file_iff_of_makeDirectories? hmade

theorem get?_writeFile {location : Location} (hne : workspace.place path ≠ location)
    (text : Text) :
    (workspace.writeFile path text).2.tree.get? location = workspace.tree.get? location := by
  rw [Workspace.writeFile]
  cases hwritten : workspace.tree.writeFile? workspace.directory path (.text text) with
  | none => rfl
  | some tree => exact FileTree.get?_of_writeFile? hne.symm hwritten

theorem printed_makeDirectories (made : Text) (workspace : Workspace) :
    (workspace.makeDirectories made).2.printed = workspace.printed :=
  workspace.printed_replaceTree _

theorem printed_writeFile (written other : Text) (workspace : Workspace) :
    (workspace.writeFile written other).2.printed = workspace.printed :=
  workspace.printed_replaceTree _

/-- The effects of a target write it, report it, and change no file at another place. -/
theorem exists_of_performAll_effects {target : Target} {rest : List Effect}
    (h : Effect.performAll host (target.effects directory ++ rest) workspace = (none, workspace')) :
    ∃ state : Workspace, state.Holds (append directory target.path) target.text ∧
      state.place = workspace.place ∧
      state.printed = workspace.printed ++
        ("wrote ".toList ++ append directory target.path ++ ['\n']) ∧
      (∀ location content, workspace.place (append directory target.path) ≠ location →
        (state.tree.get? location = some (.file content) ↔
          workspace.tree.get? location = some (.file content))) ∧
      Effect.performAll host rest state = (none, workspace') := by
  rw [Target.effects, List.cons_append, performAll_makeDirectories] at h
  split at h
  · rw [List.cons_append, performAll_writeFile] at h
    split at h
    · rename_i hwritten
      rw [List.cons_append, List.nil_append, performAll_print] at h
      generalize hmade : workspace.makeDirectories (Path.directory (append directory target.path)) =
        made at h hwritten
      have hplace : made.2.place = workspace.place := hmade ▸ place_makeDirectories _ _
      refine ⟨_, (holds_writeFile hwritten).print _, (place_writeFile _ _ _).trans hplace, ?_,
        fun location content hne => ?_, h⟩
      · rw [print, printed_writeFile, ← hmade, printed_makeDirectories]
      · rw [← hplace] at hne
        rw [print, get?_writeFile hne, ← hmade]
        exact get?_makeDirectories _ _ _ _
    · cases h
  · cases h

theorem wrote_of_performAll {targets : List Target}
    (h : Effect.performAll host (targets.flatMap (Target.effects directory)) workspace =
      (none, workspace')) : Wrote directory targets workspace workspace' := by
  induction targets generalizing workspace with
  | nil =>
      cases h
      exact ⟨(List.append_nil _).symm, by simp, fun _ _ _ => Iff.rfl⟩
  | cons target rest ih =>
      rw [List.flatMap_cons] at h
      obtain ⟨state, hholds, hplace, hprinted, hothers, hrest⟩ := exists_of_performAll_effects h
      have hwrote := ih hrest
      refine ⟨?_, fun front other back hsplit hlater => ?_, fun location content hne => ?_⟩
      · rw [hwrote.printed, hprinted, List.flatMap_cons, List.append_assoc]
      · cases front with
        | nil =>
            obtain ⟨rfl, rfl⟩ := List.cons.inj hsplit
            have hkept : (Effect.performAll host (rest.flatMap (Target.effects directory))
                state).2.Holds (append directory target.path) target.text := by
              refine hholds.performAll fun written text hmem => ?_
              obtain ⟨later, hmem', hmem⟩ := List.mem_flatMap.1 hmem
              simp only [Target.effects, List.mem_cons, Effect.writeFile.injEq, List.not_mem_nil,
                or_false, reduceCtorEq, false_or] at hmem
              rw [hplace, hmem.1]
              exact (hlater later hmem').symm
            rwa [hrest] at hkept
        | cons first front =>
            obtain ⟨rfl, rfl⟩ := List.cons.inj hsplit
            rw [← hplace] at hlater
            exact hwrote.holds front other back rfl hlater
      · rw [List.forall_mem_cons] at hne
        rw [hwrote.others location content (hplace ▸ hne.2), hothers location content hne.1]

/-- Targets at different places are all there once all of them have been written. -/
theorem Wrote.holds_of_nodup {targets : List Target}
    (h : Wrote directory targets workspace workspace')
    (hplaces : (targets.map fun target => workspace.place (append directory target.path)).Nodup) :
    ∀ target ∈ targets, workspace'.Holds (append directory target.path) target.text := by
  intro target htarget
  obtain ⟨front, back, rfl⟩ := List.append_of_mem htarget
  refine h.holds front target back rfl fun later hlater heq => ?_
  rw [List.map_append, List.map_cons, List.nodup_append] at hplaces
  have hnodup := (List.nodup_cons.1 hplaces.2.1).1
  rw [← heq] at hnodup
  exact hnodup (List.mem_map_of_mem hlater)

end Workspace

/-! ## The places of templates -/

namespace Path

theorem land_enter (here : Location) (names : List Text) :
    land here (names.map .enter) = here ++ names := by
  induction names generalizing here with
  | nil => exact (List.append_nil here).symm
  | cons name rest ih =>
      rw [List.map_cons, land, ih, List.append_assoc, List.singleton_append]

/-- Names that lead into directories only. -/
theorem exists_moves_of_not_mem {segment : Text} (h : '/' ∉ segment)
    (hdots : segment ≠ ['.', '.']) : ∃ names : List Text, moves segment = names.map .enter := by
  by_cases hstay : segment = [] ∨ segment = ['.']
  · refine ⟨[], ?_⟩
    rcases hstay with rfl | rfl <;> rfl
  · rw [not_or] at hstay
    exact ⟨[segment], moves_of_not_mem h hstay.1 hstay.2 hdots⟩

end Path

/-- Whether the lower-cased kind of a resource stays in the directory of the templates or is the
name of a directory there. -/
def Resource.HasPlainKind (resource : Resource) : Prop :=
  '/' ∉ resource.kind.lowerCase ∧ resource.kind.lowerCase ≠ ['.', '.']

theorem Resource.exists_moves_targetPath {resource : Resource} {path : Text}
    (hkind : resource.HasPlainKind) (h : resource.targetPath = .ok path) :
    isAbsolute path = false ∧ ∃ names : List Text, moves path = names.map .enter := by
  obtain ⟨hname, rfl⟩ := targetPath_eq_ok_iff.1 h
  obtain ⟨hmoves, hleaf⟩ := moves_leaf hname
  obtain ⟨hslash, hdots⟩ := hkind
  generalize resource.kind.lowerCase = kind at hslash hdots
  obtain ⟨names, hnames⟩ := exists_moves_of_not_mem hslash hdots
  have hrelative : isAbsolute kind = false := by
    rw [isAbsolute, beq_eq_false_iff_ne]
    exact fun hhead => hslash (List.mem_of_mem_head? hhead)
  have htemplates : moves templatesDirectory = [.enter templatesDirectory] := by decide
  constructor
  · rw [isAbsolute_append (append_ne_nil (by decide) kind) hleaf,
      isAbsolute_append (by decide) hrelative]
    rfl
  · refine ⟨templatesDirectory :: (names ++ [resource.leaf]), ?_⟩
    rw [moves_append _ hleaf, moves_append _ hrelative, hmoves, htemplates, hnames]
    simp

namespace Workspace

variable {workspace workspace' : Workspace} {directory : Text} {templates : List Template}

theorem place_append {path : Text} {names : List Text} (directory : Text)
    (hrelative : isAbsolute path = false) (hmoves : moves path = names.map .enter) :
    workspace.place (append directory path) = workspace.chartPlace directory ++ names := by
  rw [place, origin_append _ hrelative, moves_append _ hrelative, land_append, hmoves, land_enter,
    chartPlace]

/-- Paths with different readings are different places, when they only lead into directories. -/
theorem place_append_ne {resource resource' : Resource} {path path' : Text} (directory : Text)
    (hkind : resource.HasPlainKind) (hkind' : resource'.HasPlainKind)
    (h : resource.targetPath = .ok path) (h' : resource'.targetPath = .ok path')
    (hne : reading path ≠ reading path') :
    workspace.place (append directory path) ≠ workspace.place (append directory path') := by
  obtain ⟨hrelative, names, hmoves⟩ := Resource.exists_moves_targetPath hkind h
  obtain ⟨hrelative', names', hmoves'⟩ := Resource.exists_moves_targetPath hkind' h'
  rw [place_append directory hrelative hmoves, place_append directory hrelative' hmoves']
  intro heq
  rw [List.append_cancel_left_eq] at heq
  apply hne
  rw [reading, reading, hrelative, hrelative', ← moves, ← moves, hmoves, hmoves', heq]

theorem nodup_places {targets : List Target} (directory : Text)
    (hkinds : ∀ template ∈ templates, template.resource.HasPlainKind)
    (h : targetsOf templates = .ok targets) :
    (targets.map fun target => workspace.place (append directory target.path)).Nodup := by
  have hof : ∀ target ∈ targets, ∃ template ∈ templates,
      template.resource.targetPath = .ok target.path := fun _ => exists_of_mem_targetsFrom h
  refine List.pairwise_map.2 ((pairwise_reading_targetsFrom h).1.imp_of_mem ?_)
  intro target target' htarget htarget' hne
  obtain ⟨template, hmem, hpath⟩ := hof target htarget
  obtain ⟨template', hmem', hpath'⟩ := hof target' htarget'
  exact place_append_ne directory (hkinds template hmem) (hkinds template' hmem') hpath hpath' hne

theorem wrote_of_effectsFor {effects : List Effect}
    (heffects : effectsFor templates (some directory) = .ok effects)
    (hperform : Effect.performAll host effects workspace = (none, workspace')) :
    ∃ targets, targetsOf templates = .ok targets ∧
      Wrote directory targets workspace workspace' := by
  obtain ⟨targets, htargets, rfl⟩ := exists_of_effectsFor heffects
  rw [performAll_makeDirectories] at hperform
  split at hperform
  · have hwrote := wrote_of_performAll hperform
    refine ⟨targets, htargets, ?_, fun front target back hsplit hlater => ?_,
      fun location content hne => ?_⟩
    · rw [hwrote.printed, printed_makeDirectories]
    · rw [← place_makeDirectories directory workspace] at hlater
      exact hwrote.holds front target back hsplit hlater
    · rw [← place_makeDirectories directory workspace] at hne
      rw [hwrote.others location content hne]
      exact get?_makeDirectories directory workspace location content
  · cases hperform

/-- Once the templates of a chart have been written, their paths lead to files that are pairwise
different, and each file holds its template: no template took the place of another one. -/
theorem written_templates_hold (hkinds : ∀ template ∈ templates,
      '/' ∉ template.resource.kind.lowerCase ∧ template.resource.kind.lowerCase ≠ ['.', '.'])
    {effects : List Effect} (heffects : effectsFor templates (some directory) = .ok effects)
    (hperform : Effect.performAll host effects workspace = (none, workspace')) :
    ∃ paths : List Text,
      List.Forall₂ (fun template path => template.resource.targetPath = .ok path ∧
        workspace'.readFile (append directory path) = .text template.text) templates paths ∧
      (paths.map fun path =>
        workspace'.tree.locate? workspace'.directory (append directory path)).Nodup := by
  obtain ⟨targets, htargets, hwrote⟩ := wrote_of_effectsFor heffects hperform
  have hholds := hwrote.holds_of_nodup (nodup_places directory hkinds htargets)
  refine ⟨targets.map Target.path, ?_, ?_⟩
  · rw [List.forall₂_map_right_iff]
    have hall := (List.forall₂_and_left targets templates).2
      ⟨hholds, (forall₂_isOf_targetsFrom htargets).flip⟩
    exact hall.flip.imp fun template target h => ⟨h.2.path, h.2.text ▸ h.1.readFile⟩
  · have hlocated : (targets.map Target.path).map (fun path =>
        workspace'.tree.locate? workspace'.directory (append directory path)) =
          (targets.map fun target =>
            workspace'.place (append directory target.path)).map some := by
      rw [List.map_map, List.map_map]
      exact List.map_congr_left fun target htarget => (hholds target htarget).located
    rw [hlocated]
    exact List.Pairwise.map some (fun _ _ hne heq => hne (Option.some.inj heq))
      (nodup_places directory hkinds htargets)

/-- A secret of the kind `.`, whose file stands among the templates themselves, and a service. -/
theorem written_templates_hold_two : ∃ (workspace' : Workspace) (paths : List Text),
    List.Forall₂ (fun template path => Resource.targetPath template.resource = .ok path ∧
        workspace'.readFile (append "out".toList path) = .text (Template.text template))
      [⟨⟨".".toList, [], "a".toList, []⟩, "first".toList⟩,
        ⟨⟨"Service".toList, [], "a".toList, []⟩, "second".toList⟩] paths ∧
      (paths.map fun path =>
        workspace'.tree.locate? workspace'.directory (append "out".toList path)).Nodup := by
  have hkinds : ∀ template ∈ [(⟨⟨".".toList, [], "a".toList, []⟩, "first".toList⟩ : Template),
      ⟨⟨"Service".toList, [], "a".toList, []⟩, "second".toList⟩],
      '/' ∉ template.resource.kind.lowerCase ∧ template.resource.kind.lowerCase ≠ ['.', '.'] := by
    decide
  have heffects : effectsFor [⟨⟨".".toList, [], "a".toList, []⟩, "first".toList⟩,
        ⟨⟨"Service".toList, [], "a".toList, []⟩, "second".toList⟩] (some "out".toList) =
      .ok (.makeDirectories "out".toList (.outputDirectory "out".toList) ::
        ([⟨"templates/./a.yaml".toList, "first".toList⟩,
          ⟨"templates/service/a.yaml".toList, "second".toList⟩] : List Target).flatMap
            (Target.effects "out".toList)) := by decide +kernel
  have hdone : (Effect.performAll host (.makeDirectories "out".toList
        (.outputDirectory "out".toList) ::
          ([⟨"templates/./a.yaml".toList, "first".toList⟩,
            ⟨"templates/service/a.yaml".toList, "second".toList⟩] : List Target).flatMap
              (Target.effects "out".toList)) ⟨FileTree.empty, [], .missing, []⟩).1 = none := by
    decide +kernel
  generalize hperform : Effect.performAll host _ ⟨FileTree.empty, [], .missing, []⟩ = result
    at hdone
  obtain ⟨fault, workspace'⟩ := result
  cases hdone
  exact ⟨workspace', written_templates_hold hkinds heffects hperform⟩

end Workspace

end OperatorChart
