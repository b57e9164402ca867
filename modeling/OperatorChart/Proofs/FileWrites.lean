import OperatorChart.Proofs.PathResolution
import OperatorChart.Workspace
/-!
# What a run leaves alone

Making directories changes no file, and writing a file changes only the one at the end of its
path. So files away from the places that the effects of a run name are after the run what they
were before.
-/

namespace OperatorChart

namespace FileTree

variable {tree tree' : FileTree} {here place : Location} {path : Text}

/-- Whether two trees have the same files at each place that is not below `base`. -/
def SameFilesOutside (base : Location) (tree tree' : FileTree) : Prop :=
  ∀ place content, ¬ base <+: place →
    (tree'.get? place = some (.file content) ↔ tree.get? place = some (.file content))

theorem SameFilesOutside.refl (base : Location) (tree : FileTree) :
    SameFilesOutside base tree tree :=
  fun _ _ _ => Iff.rfl

theorem SameFilesOutside.trans {base : Location} {tree'' : FileTree}
    (h : SameFilesOutside base tree tree') (h' : SameFilesOutside base tree' tree'') :
    SameFilesOutside base tree tree'' :=
  fun place content hplace => (h' place content hplace).trans (h place content hplace)

theorem lookup_filter_ne (entries : List (Location × FileEntry)) (h : here ≠ place) :
    (entries.filter (·.1 != place)).lookup here = entries.lookup here := by
  induction entries with
  | nil => rfl
  | cons entry rest ih =>
      obtain ⟨location, content⟩ := entry
      by_cases hlocation : location = place
      · have hne : (here == location) = false := by simpa [hlocation] using h
        rw [List.filter_cons_of_neg (by simp [hlocation]), ih, List.lookup_cons, hne]
      · rw [List.filter_cons_of_pos (by simp [hlocation]), List.lookup_cons, List.lookup_cons, ih]

theorem get?_put_of_ne (tree : FileTree) (entry : FileEntry) (h : here ≠ place) :
    (tree.put place entry).get? here = tree.get? here := by
  have hne : (here == place) = false := by simpa using h
  rw [get?, get?, put, List.lookup_cons, hne, lookup_filter_ne _ h]

theorem get?_put_self (tree : FileTree) (entry : FileEntry) (h : place ≠ []) :
    (tree.put place entry).get? place = some entry := by
  rw [get?, if_neg (by simpa using h), put, List.lookup_cons, beq_self_eq_true]

theorem walk?_eq_land {steps : List PathStep} (h : tree.walk? here steps = some place) :
    place = Path.land here steps := by
  induction steps generalizing here with
  | nil =>
      rw [walk?, Option.some.injEq] at h
      exact h.symm
  | cons step rest ih =>
      cases step with
      | stay =>
          rw [walk?] at h
          split at h
          · cases h
          · exact ih h
      | parent =>
          rw [walk?] at h
          split at h
          · cases h
          · exact ih h
      | enter name =>
          rw [walk?] at h
          split at h
          · cases h
          · split at h
            · exact ih h
            · cases h

/-- Making directories puts none of them in place of a file. -/
theorem get?_eq_file_iff_of_makeSteps? {steps : List PathStep} {content : FileContent}
    (h : tree.makeSteps? here steps = some tree') :
    tree'.get? place = some (.file content) ↔ tree.get? place = some (.file content) := by
  induction steps generalizing tree here with
  | nil =>
      rw [makeSteps?, Option.some.injEq] at h
      rw [h]
  | cons step rest ih =>
      cases step with
      | stay => exact ih h
      | parent => exact ih h
      | enter name =>
          rw [makeSteps?] at h
          split at h
          · cases h
          · split at h
            · rename_i hnone
              rw [ih h]
              by_cases hplace : place = here ++ [name]
              · rw [hplace, hnone, get?_put_self _ _ (by simp)]
                simp
              · rw [get?_put_of_ne _ _ hplace]
            · exact ih h
            · cases h

theorem get?_eq_file_iff_of_makeDirectories? {directory : Location} {content : FileContent}
    (h : tree.makeDirectories? directory path = some tree') :
    tree'.get? place = some (.file content) ↔ tree.get? place = some (.file content) := by
  unfold makeDirectories? at h
  dsimp only at h
  split at h
  · cases h
    exact Iff.rfl
  · split at h
    · cases h
    · split at h
      · obtain ⟨made, hmade, h⟩ := Option.bind_eq_some_iff.1 h
        obtain ⟨location, -, h⟩ := Option.bind_eq_some_iff.1 h
        split at h
        · cases h
          exact get?_eq_file_iff_of_makeSteps? hmade
        · cases h
      · exact get?_eq_file_iff_of_makeSteps? h

theorem locate?_eq_land {directory : Location} (h : tree.locate? directory path = some place) :
    place = Path.land (origin directory path) (Path.moves path) := by
  unfold locate? at h
  split at h
  · rw [← Path.land_steps]
    exact walk?_eq_land h
  · cases h

theorem exists_of_writeFile? {directory : Location} {content : FileContent}
    (h : tree.writeFile? directory path content = some tree') : ∃ location,
      tree.locate? directory path = some location ∧ tree.isDirectory location = false ∧
        tree' = tree.put location (.file content) := by
  obtain ⟨location, hlocation, h⟩ := Option.bind_eq_some_iff.1 h
  split at h
  · cases h
  · rename_i hplace
    cases h
    simp only [Bool.or_eq_true, Bool.not_eq_true', not_or, Bool.not_eq_true] at hplace
    exact ⟨location, hlocation, hplace.1, rfl⟩

theorem get?_of_writeFile? {directory : Location} {content : FileContent}
    (hne : place ≠ Path.land (origin directory path) (Path.moves path))
    (h : tree.writeFile? directory path content = some tree') : tree'.get? place = tree.get? place := by
  obtain ⟨location, hlocation, -, rfl⟩ := exists_of_writeFile? h
  rw [get?_put_of_ne _ _ (locate?_eq_land hlocation ▸ hne)]

theorem sameFilesOutside_writeFile? {base directory : Location} {content : FileContent}
    (hbase : base <+: Path.land (origin directory path) (Path.moves path))
    (h : tree.writeFile? directory path content = some tree') :
    SameFilesOutside base tree tree' := by
  intro place content' hplace
  have hne : place ≠ Path.land (origin directory path) (Path.moves path) := by
    rintro rfl
    exact hplace hbase
  rw [get?_of_writeFile? hne h]

end FileTree

/-! ## Effects -/

def Effect.WritesBelow (base directory : Location) : Effect → Prop
  | .makeDirectories _ _ => True
  | .writeFile path _ => base <+: Path.land (FileTree.origin directory path) (Path.moves path)
  | .print _ => True

namespace Workspace

variable {workspace : Workspace} {base : Location}

/-- Whether a workspace has the same files as another one at each place that is not below
`base`, and the same directory where relative paths start. -/
structure SameOutside (base : Location) (workspace workspace' : Workspace) : Prop where
  files : workspace.tree.SameFilesOutside base workspace'.tree
  directory : workspace'.directory = workspace.directory

theorem SameOutside.refl (base : Location) (workspace : Workspace) :
    SameOutside base workspace workspace :=
  ⟨FileTree.SameFilesOutside.refl base workspace.tree, rfl⟩

theorem SameOutside.trans {workspace' workspace'' : Workspace}
    (h : SameOutside base workspace workspace') (h' : SameOutside base workspace' workspace'') :
    SameOutside base workspace workspace'' :=
  ⟨h.files.trans h'.files, h'.directory.trans h.directory⟩

theorem sameOutside_replaceTree {result : Option FileTree}
    (h : ∀ tree, result = some tree → workspace.tree.SameFilesOutside base tree) :
    SameOutside base workspace (workspace.replaceTree result).2 := by
  cases result with
  | none => exact SameOutside.refl base workspace
  | some tree => exact ⟨h tree rfl, rfl⟩

theorem sameOutside_makeDirectories (base : Location) (path : Text) (workspace : Workspace) :
    SameOutside base workspace (workspace.makeDirectories path).2 :=
  sameOutside_replaceTree fun _ h _ _ _ => FileTree.get?_eq_file_iff_of_makeDirectories? h

theorem sameOutside_writeFile {path text : Text}
    (h : (Effect.writeFile path text).WritesBelow base workspace.directory) :
    SameOutside base workspace (workspace.writeFile path text).2 :=
  sameOutside_replaceTree fun _ hwrite => FileTree.sameFilesOutside_writeFile? h hwrite

theorem performAll_makeDirectories (path : Text) (otherwise : Failure) (rest : List Effect)
    (workspace : Workspace) :
    Effect.performAll host (.makeDirectories path otherwise :: rest) workspace =
      if (workspace.makeDirectories path).1 then
        Effect.performAll host rest (workspace.makeDirectories path).2
      else (some otherwise, (workspace.makeDirectories path).2) := by
  change (if (workspace.makeDirectories path).1 = true then Effect.performAll host rest
      else (pure (some otherwise) : StateM Workspace _)) (workspace.makeDirectories path).2 = _
  split <;> rfl

theorem performAll_writeFile (path text : Text) (rest : List Effect) (workspace : Workspace) :
    Effect.performAll host (.writeFile path text :: rest) workspace =
      if (workspace.writeFile path text).1 then
        Effect.performAll host rest (workspace.writeFile path text).2
      else (some (.unwritten path), (workspace.writeFile path text).2) := by
  change (if (workspace.writeFile path text).1 = true then Effect.performAll host rest
      else (pure (some (.unwritten path)) : StateM Workspace _))
        (workspace.writeFile path text).2 = _
  split <;> rfl

theorem performAll_print (text : Text) (rest : List Effect) (workspace : Workspace) :
    Effect.performAll host (.print text :: rest) workspace =
      Effect.performAll host rest (workspace.print text).2 := rfl

/-- Effects leave everything alone that none of them names. -/
theorem sameOutside_performAll {effects : List Effect}
    (h : ∀ effect ∈ effects, effect.WritesBelow base workspace.directory) :
    SameOutside base workspace (Effect.performAll host effects workspace).2 := by
  induction effects generalizing workspace with
  | nil => exact SameOutside.refl base workspace
  | cons effect rest ih =>
      have hrest : ∀ {workspace'}, SameOutside base workspace workspace' →
          SameOutside base workspace (Effect.performAll host rest workspace').2 := by
        intro workspace' hsame
        apply hsame.trans
        apply ih
        intro effect' heffect'
        rw [hsame.directory]
        exact h effect' (List.mem_cons_of_mem effect heffect')
      cases effect with
      | makeDirectories path otherwise =>
          rw [performAll_makeDirectories]
          have hmade := sameOutside_makeDirectories base path workspace
          split
          · exact hrest hmade
          · exact hmade
      | writeFile path text =>
          rw [performAll_writeFile]
          have hwritten := sameOutside_writeFile (h _ List.mem_cons_self)
          split
          · exact hrest hwritten
          · exact hwritten
      | print text =>
          rw [performAll_print]
          exact hrest ⟨FileTree.SameFilesOutside.refl base workspace.tree, rfl⟩

/-! ## Runs -/

def manifestReading (workspace : Workspace) (invocation : Invocation) : ReadResult :=
  if invocation.usesStandardInput then workspace.standardInput
  else workspace.readFile invocation.input

def configReading (workspace : Workspace) (invocation : Invocation) :
    Option (Text × ReadResult) :=
  invocation.config.map fun path => (path, workspace.readFile path)

theorem readFile_bind {α : Type} (path : Text) (f : ReadResult → StateM Workspace α)
    (workspace : Workspace) :
    (host.readFile path >>= f) workspace = f (workspace.readFile path) workspace := rfl

theorem prepare_eq (workspace : Workspace) (invocation : Invocation) :
    invocation.prepare host workspace =
      ((invocation.templater (workspace.configReading invocation)).bind fun templater =>
        (invocation.manifest (workspace.manifestReading invocation)).bind
          (invocation.plan templater), workspace) := by
  unfold Invocation.prepare configReading manifestReading
  cases invocation.config with
  | none =>
      dsimp only
      rw [Option.map_none, pure_bind]
      cases htemplater : invocation.templater none with
      | error failure => rfl
      | ok templater => cases invocation.usesStandardInput <;> rfl
  | some path =>
      dsimp only
      rw [Option.map_some, readFile_bind, pure_bind]
      cases htemplater : invocation.templater (some (path, workspace.readFile path)) with
      | error failure => rfl
      | ok templater => cases invocation.usesStandardInput <;> rfl

/-- A run performs its plan, if it makes one. -/
theorem run_eq (workspace : Workspace) (invocation : Invocation) :
    workspace.run invocation =
      match (invocation.prepare host workspace).1 with
      | .error failure => (.error failure, workspace)
      | .ok plan =>
        (match (Effect.performAll host plan.effects workspace).1 with
          | some failure => .error failure
          | none => .ok plan.summary, (Effect.performAll host plan.effects workspace).2) := by
  have hrun : workspace.run invocation = (match (invocation.prepare host workspace).1 with
      | .error failure => (pure (.error failure) : StateM Workspace (Except Failure Summary))
      | .ok plan => do
        match ← Effect.performAll host plan.effects with
        | some failure => return .error failure
        | none => return .ok plan.summary) (invocation.prepare host workspace).2 := rfl
  have hprepare : (invocation.prepare host workspace).2 = workspace := by
    rw [prepare_eq]
  rw [hrun, hprepare]
  cases (invocation.prepare host workspace).1 with
  | error => rfl
  | ok plan =>
    change (match (Effect.performAll host plan.effects workspace).1 with
        | some failure => (pure (.error failure) : StateM Workspace (Except Failure Summary))
        | none => pure (.ok plan.summary)) (Effect.performAll host plan.effects workspace).2 = _
    dsimp only
    cases (Effect.performAll host plan.effects workspace).1 <;> rfl

end Workspace

end OperatorChart
