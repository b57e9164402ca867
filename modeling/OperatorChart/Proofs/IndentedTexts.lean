import OperatorChart.Proofs.IndentedEdits
import OperatorChart.Proofs.MonitorNames
import OperatorChart.Templater
/-!
# Templating of indented texts

Only the edits of fields can fail, and they fail where the column of a key, a width in bytes, ends
inside a character. On a text that is indented by spaces and tabs it never does. Main statement:
on such a text every pass succeeds, whatever the resource and the name of the project, and leaves
such a text; so templating as a whole succeeds.
-/

namespace OperatorChart

open Text

namespace Text

/-- Whether every line that is not blank has only spaces and tabs before its first character that
is not white space. -/
def IsIndented (t : Text) : Prop :=
  ∀ line ∈ lines t, Line.isBlank line = false →
    ∀ c ∈ line.takeWhile Unicode.isWhiteSpace, isIndentation c = true

instance (t : Text) : Decidable t.IsIndented :=
  inferInstanceAs (Decidable (∀ line ∈ lines t, _ → ∀ c ∈ line.takeWhile _, _))

theorem isIndented_iff {t : Text} : t.IsIndented ↔ ∀ line ∈ lines t, Line.IsIndented line := by
  simp only [IsIndented, Line.isIndented_iff]

theorem IsIndented.areIndented {t : Text} (h : t.IsIndented) : AreIndented (lines t) :=
  ⟨areLines_lines t, isIndented_iff.1 h⟩

end Text

theorem AreIndented.isIndented_ofLines {ls : List Line} (h : AreIndented ls) :
    (ofLines ls).IsIndented := by
  rw [isIndented_iff, lines_ofLines h.toAreLines]
  exact h.indented

/-! ## Substitutions -/

/-- A replacement that starts with a solid character leaves the indentation of a line alone: the
needle is no white space, so what it takes of the indentation is spaces and tabs. -/
theorem Line.isIndented_replaceAll {line : Line} {needle replacement : Text}
    (hneedle : ∃ c ∈ needle, Unicode.isWhiteSpace c = false)
    (hreplacement : replacement.head? = some '{') (h : line.IsIndented) :
    Line.IsIndented (line.replaceAll needle replacement) := by
  obtain ⟨c, hmem, hc⟩ := hneedle
  have hne : needle ≠ [] := List.ne_nil_of_mem hmem
  rcases h with hblank | hled
  · left
    have hwhite := isBlank_iff.1 hblank
    have hnot : ¬ needle <:+: line := by
      intro hocc
      rw [hwhite c (hocc.mem hmem)] at hc
      cases hc
    rwa [replaceAll_eq_self hnot]
  · right
    induction line using replacement_induction hne with
    | nil => exact hled
    | found t _ =>
        obtain ⟨rest, rfl⟩ : ∃ rest, replacement = '{' :: rest :=
          ⟨replacement.tail, List.eq_cons_of_mem_head? hreplacement⟩
        intro d hd
        rw [replaceAll_append hne, List.cons_append, List.dropWhile_cons_of_neg (by decide)] at hd
        cases hd
        rfl
    | skip d t hd ih =>
        rw [replaceAll_cons hd]
        by_cases hindentation : isIndentation d = true
        · rw [List.dropWhile_cons_of_pos hindentation] at hled ⊢
          exact ih hled
        · rw [List.dropWhile_cons_of_neg hindentation] at hled ⊢
          exact hled

namespace Text.IsIndented

variable {t : Text}

theorem of_linewise {f : Text → Text} (hf : Naming.IsLinewise f)
    (hline : ∀ line : Line, line.IsIndented → Line.IsIndented (f line)) (h : t.IsIndented) :
    (f t).IsIndented := by
  rw [isIndented_iff] at h ⊢
  rw [hf]
  intro line hmem
  obtain ⟨source, hsource, rfl⟩ := List.mem_map.1 hmem
  exact hline source (h source hsource)

end Text.IsIndented

namespace Naming

variable {project t : Text} (hproject : '\n' ∉ project)

include hproject

theorem IsSubstitution.isIndented {f : Text → Text} (h : IsSubstitution project f)
    (ht : t.IsIndented) : (f t).IsIndented := by
  refine ht.of_linewise (h.isLinewise hproject) fun line hline => ?_
  induction h generalizing line with
  | same => exact hline
  | @literal front mark replacement _ hmem =>
      have hword := isWord_of_mem_ends hmem
      obtain ⟨c, hc⟩ := List.exists_mem_of_ne_nil mark hword.ne_nil
      exact Line.isIndented_replaceAll ⟨c, List.mem_append_right front hc, hword.solid c hc⟩
        (replacement_of_mem_ends hmem).1 hline
  | comp _ _ hf hg => exact hg _ (hf line hline)

omit hproject in
theorem IsRenaming.isIndented {line line' : Line} (h : IsRenaming line line')
    (hline : line.IsIndented) : line'.IsIndented := by
  cases h with
  | trails h =>
      obtain ⟨tail, -, rfl⟩ := h
      rcases hline with hblank | hled
      · exact .inl (isBlank_iff.2 fun c hc => isBlank_iff.1 hblank c (List.mem_append_left _ hc))
      · refine .inr fun c hc => hled c ?_
        rw [List.dropWhile_append]
        cases hdrop : line'.dropWhile isIndentation with
        | nil =>
            rw [hdrop] at hc
            cases hc
        | cons d rest => rwa [hdrop] at hc
  | entry hstart _ =>
      rw [List.append_assoc]
      exact Line.isIndented_append hstart rfl

theorem isIndented_fillMonitor (resource : Resource) (h : t.IsIndented) :
    (fillMonitor project resource t).IsIndented := by
  have hrenamed := forall₂_isRenaming_fillMonitor hproject resource t
  rw [isIndented_iff] at h ⊢
  generalize lines t = ls at hrenamed h
  generalize lines (fillMonitor project resource t) = ls' at hrenamed
  induction hrenamed with
  | nil => exact h
  | cons hline _ ih =>
      rw [List.forall_mem_cons] at h ⊢
      exact ⟨hline.isIndented h.1, ih h.2⟩

omit hproject in
theorem isIndented_fillManagedBy (h : t.IsIndented) : (fillManagedBy t).IsIndented := by
  rw [isIndented_iff] at h ⊢
  rw [lines_fillManagedBy]
  intro line' hmem
  obtain ⟨line, hline, rfl⟩ := List.mem_map.1 hmem
  unfold fillManagedByLine
  split
  · rw [List.append_assoc]
    exact Line.isIndented_append (fun _ hc => Line.isIndentation_of_mem_leading hc) rfl
  · exact h line hline

end Naming

/-! ## Guards of resources -/

namespace Wrap

variable {t : Text}

theorem isIndented_guardDocument (condition : Condition) (h : t.IsIndented) :
    (guardDocument condition t).IsIndented := by
  rcases lines_guardDocument condition t with hsame | ⟨inner, hinner, hlines⟩
  · rwa [hsame]
  · have hbody : ∀ line ∈ lines inner, Line.IsIndented line := by
      rw [isIndented_iff] at h
      rcases hinner with rfl | rfl
      · rw [lines_append_singleton, List.forall_mem_append] at h
        exact h.1
      · exact h
    rw [isIndented_iff, hlines, List.forall_mem_append]
    exact ⟨fun line hline => Condition.isIndented_of_mem_guard (by simp) hbody hline,
      List.forall_mem_singleton.2 (.inl rfl)⟩

theorem isIndented_leading_trimmed {line : Line} (h : line.isBlank = false) :
    Line.IsIndented (line.leading ++ line.trimmed) := by
  cases htrimmed : line.trimmed with
  | nil =>
      rw [Line.isBlank, htrimmed] at h
      cases h
  | cons c rest =>
      exact Line.isIndented_append (fun _ hc => Line.isIndentation_of_mem_leading hc)
        (head_trim htrimmed)

theorem areIndented_guardInjections {ls : List Line} (hls : AreIndented ls) :
    AreIndented (guardInjections none ls) := by
  refine ⟨areLines_guardInjections hls.toAreLines, ?_⟩
  obtain ⟨-, hindented⟩ := hls
  generalize none = previous
  induction ls generalizing previous with
  | nil => exact hindented
  | cons line rest ih =>
      rw [List.forall_mem_cons] at hindented
      rw [guardInjections, List.forall_mem_append]
      refine ⟨?_, ih hindented.2 (some line)⟩
      split
      · rename_i hbare
        simp only [isBareInjection, Bool.and_eq_true] at hbare
        have hannotation := isIndented_leading_trimmed (Line.not_isBlank_of_hasKey hbare.1.2)
        exact fun l hl => Condition.isIndented_of_mem_guard
          (fun _ hc => Line.isIndentation_of_mem_leading hc)
          (List.forall_mem_singleton.2 hannotation) hl
      · exact List.forall_mem_singleton.2 hindented.1

theorem isIndented_apply (resource : Resource) (h : t.IsIndented) :
    (apply resource t).IsIndented := by
  unfold apply
  split
  · decide
  · exact isIndented_guardDocument _ h
  · exact (areIndented_guardInjections h.areIndented).isIndented_ofLines
  · exact h

end Wrap

/-! ## Passes -/

namespace Pass

variable {context : PassContext} {name : String} {t : Text}

/-- Whether a pass succeeds on every indented text and leaves an indented one. -/
def KeepsIndentation (context : PassContext) (pass : Pass) : Prop :=
  ∀ t : Text, t.IsIndented → ∃ out, pass.run context t = .ok out ∧ out.IsIndented

theorem keepsIndentation_ofText {scope : PassScope} {f : PassContext → Text → Text}
    (h : ∀ t : Text, t.IsIndented → (f context t).IsIndented) :
    KeepsIndentation context (ofText name scope f) :=
  fun t ht => ⟨f context t, rfl, h t ht⟩

theorem keepsIndentation_ofLines {f : List Line → List Line}
    (h : ∀ ls, AreIndented ls → AreIndented (f ls)) :
    KeepsIndentation context (ofLines name f) :=
  keepsIndentation_ofText fun _ ht => (h _ ht.areIndented).isIndented_ofLines

theorem keepsIndentation_ofEdit {f : List Line → Except EditError (List Line)}
    (h : ∀ ls, AreIndented ls → ∃ ls', f ls = .ok ls' ∧ AreIndented ls') :
    KeepsIndentation context (ofEdit name f) := by
  intro t ht
  obtain ⟨ls', hrun, hls'⟩ := h _ ht.areIndented
  refine ⟨Text.ofLines ls', ?_, hls'.isIndented_ofLines⟩
  rw [ofEdit]
  dsimp only
  rw [hrun]
  rfl

theorem keepsIndentation_of_mem {pass : Pass} (hproject : '\n' ∉ context.project)
    (h : pass ∈ all) : KeepsIndentation context pass := by
  simp only [all, List.mem_cons, List.not_mem_nil, or_false] at h
  rcases h with rfl | rfl | rfl | rfl | rfl | rfl | rfl | rfl | rfl | rfl | rfl | rfl | rfl | rfl |
    rfl | rfl | rfl | rfl
  · exact keepsIndentation_ofText fun _ ht => Wrap.isIndented_apply context.resource ht
  · exact keepsIndentation_ofText fun _ ht =>
      (Naming.isSubstitution_fillNamespace _).isIndented hproject ht
  · exact keepsIndentation_ofText fun _ ht =>
      (Naming.isSubstitution_fillCertificate _ _).isIndented hproject ht
  · exact keepsIndentation_ofText fun _ ht =>
      (Naming.isSubstitution_fillIssuer _).isIndented hproject ht
  · exact keepsIndentation_ofText fun _ ht =>
      Naming.isIndented_fillMonitor hproject context.resource ht
  · exact keepsIndentation_ofText fun _ ht => Naming.isIndented_fillManagedBy ht
  · exact keepsIndentation_ofEdit fun _ => Values.indented_fillImage
  · exact keepsIndentation_ofEdit fun _ => Values.indented_fillEnv
  · exact keepsIndentation_ofEdit fun _ => Values.indented_fillPodSecurityContext
  · exact keepsIndentation_ofEdit fun _ => Values.indented_fillContainerSecurityContext
  · exact keepsIndentation_ofEdit fun _ => Values.indented_fillResources
  · exact keepsIndentation_ofLines fun _ => Values.areIndented_fillArgs
  · exact keepsIndentation_ofLines fun _ => CertificateGuard.areIndented_guardPaths
  · exact keepsIndentation_ofLines fun _ => ItemGuard.webhookVolumeMount.areIndented_apply
  · exact keepsIndentation_ofLines fun _ => ItemGuard.webhookVolume.areIndented_apply
  · exact keepsIndentation_ofLines fun _ => ItemGuard.metricsVolumeMount.areIndented_apply
  · exact keepsIndentation_ofLines fun _ => ItemGuard.metricsVolume.areIndented_apply
  · exact keepsIndentation_ofText fun _ ht =>
      (BlankRuns.areIndented_collapse ht.areIndented).isIndented_ofLines

/-- What each pass of a run keeps, the run keeps. -/
theorem exists_runAll {passes : List Pass}
    (h : ∀ pass ∈ passes, KeepsIndentation context pass) (ht : t.IsIndented) :
    ∃ out, runAll context passes t = .ok out ∧ out.IsIndented := by
  induction passes generalizing t with
  | nil => exact ⟨t, rfl, ht⟩
  | cons pass rest ih =>
      rw [List.forall_mem_cons] at h
      obtain ⟨after, hrun, hafter⟩ := h.1 t ht
      obtain ⟨out, hrest, hout⟩ := ih h.2 hafter
      refine ⟨out, ?_, hout⟩
      rw [runAll, hrun]
      exact hrest

end Pass

namespace Templater

variable {project t : Text}

/-- Templating never fails on a text that is indented by spaces and tabs, and neither does any of
its passes, run on whatever resource; the lines that an edit reads and replaces are there. -/
theorem succeeds_of_isIndented (hproject : '\n' ∉ project) (resource : Resource)
    (ht : t.IsIndented) :
    (∀ pass ∈ Pass.all, ∃ out, pass.run ⟨resource, project⟩ t = .ok out ∧ out.IsIndented) ∧
      (∃ out, apply ⟨project⟩ resource t = .ok out ∧ out.IsIndented) ∧
      ∀ ls, Deployment.HasPlaces ls := by
  have hpasses : ∀ pass ∈ Pass.all, Pass.KeepsIndentation ⟨resource, project⟩ pass :=
    fun _ hpass => Pass.keepsIndentation_of_mem hproject hpass
  refine ⟨fun pass hpass => hpasses pass hpass t ht, ?_, Deployment.hasPlaces⟩
  exact Pass.exists_runAll (fun pass hpass => hpasses pass (List.mem_of_mem_filter hpass)) ht

/-- A manager whose name is indented by a tab and whose image by an ideographic space behind the
dash, in a project whose name is a space. -/
theorem succeeds_of_isIndented_tab :
    let resource : Resource := ⟨"Deployment".toList, [], [], []⟩
    let t : Text := "\t- \u3000image: x\n\t     name: manager\n \u3000\n".toList
    '\n' ∉ " ".toList ∧ t.IsIndented ∧
      (∀ pass ∈ Pass.all, ∃ out, pass.run ⟨resource, " ".toList⟩ t = .ok out ∧ out.IsIndented) ∧
      (∃ out, apply ⟨" ".toList⟩ resource t = .ok out ∧ out.IsIndented) ∧
      ∀ ls, Deployment.HasPlaces ls := by
  intro resource t
  have ht : t.IsIndented := by decide
  exact ⟨by decide, ht, succeeds_of_isIndented (by decide) resource ht⟩

/-- Behind an ideographic space, three bytes wide, the column of a key ends inside of it. -/
example : keyPrefix "\u3000- image: x".toList =
    .error (.columnInsideCharacter "\u3000- image: x".toList 2) := rfl

end Templater

end OperatorChart
