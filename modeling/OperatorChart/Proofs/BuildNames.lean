import OperatorChart.Proofs.AddedLines
/-!
# Names that templating takes away

The namespace that the build tool writes is gone behind the first substitution, and the label
that names the build tool behind the last one. Nothing that follows brings them back: not the
other names, whose replacements share no piece with them, and not the lines that edits add.
-/

namespace OperatorChart

open Text

namespace Naming

variable {project t w mark : Text} {resource : Resource} {line : Line}

/-! ## The label of the build tool -/

/-- Whether a line is the label that names the build tool as the manager, between spaces and
tabs. -/
def IsBuildLabel (line : Line) : Prop :=
  ∃ s gap tail, line = s ++ (managedByLabel ++ (gap ++ ("kustomize".toList ++ tail))) ∧
    gap ≠ [] ∧ ∀ c ∈ s ++ gap ++ tail, isIndentation c = true

theorem dropWhile_isIndentation_append {s rest : Text} {c : Char}
    (hs : ∀ c ∈ s, isIndentation c = true) (hc : isIndentation c = false) :
    (s ++ c :: rest).dropWhile isIndentation = c :: rest := by
  rw [List.dropWhile_append_of_pos hs, List.dropWhile_cons_of_neg (by simp [hc])]

theorem isManagedByBuild_iff : isManagedByBuild line = true ↔ IsBuildLabel line := by
  constructor
  · intro h
    obtain ⟨gap, tail, hparts, hne, hgap, htail⟩ := parts_of_isManagedByBuild h
    refine ⟨line.leading, gap, tail, ?_, hne, ?_⟩
    · rw [← hparts]
      exact List.takeWhile_append_dropWhile.symm
    · intro c hc
      rw [List.mem_append, List.mem_append] at hc
      rcases hc with (hc | hc) | hc
      · exact Line.isIndentation_of_mem_leading hc
      · exact hgap c hc
      · exact htail c hc
  · rintro ⟨s, gap, tail, rfl, hne, hwhite⟩
    rw [List.forall_mem_append, List.forall_mem_append] at hwhite
    obtain ⟨⟨hs, hgap⟩, htail⟩ := hwhite
    have hlabel : (s ++ (managedByLabel ++ (gap ++ ("kustomize".toList ++ tail)))).dropWhile
        isIndentation = managedByLabel ++ (gap ++ ("kustomize".toList ++ tail)) :=
      dropWhile_isIndentation_append hs rfl
    have hvalue : (gap ++ ("kustomize".toList ++ tail)).dropWhile isIndentation =
        "kustomize".toList ++ tail := dropWhile_isIndentation_append hgap rfl
    obtain ⟨c, gap, rfl⟩ := List.exists_cons_of_ne_nil hne
    have hc := hgap c List.mem_cons_self
    rw [isManagedByBuild, hlabel, isPrefixOf?_eq_some_iff.2 rfl]
    dsimp only
    rw [hvalue, isPrefixOf?_eq_some_iff.2 rfl]
    simpa [hc] using htail

theorem isManagedByBuild_fillManagedByLine (line : Line) :
    isManagedByBuild (fillManagedByLine line) = false := by
  by_cases h : isManagedByBuild line = true
  · rw [fillManagedByLine, if_pos h]
    exact isManagedByBuild_release line
  · rw [fillManagedByLine, if_neg h]
    simpa using h

/-! ## Literals in a monitor -/

theorem infix_of_infix_isRenaming {line' : Line} (hw : IsLiteral w) (hmark : mark <:+: w)
    (hchart : hasInfix mark ("name:".toList ++ chartName) = false)
    (hbare : hasInfix mark ('-' :: metricsMonitorSuffix) = false)
    (h : IsRenaming line line') (hocc : w <:+: line') : w <:+: line := by
  cases h with
  | trails htrails =>
      obtain ⟨tail, -, rfl⟩ := htrails
      exact List.infix_append_of_infix_left hocc
  | @entry start pad front s tail hstart hdash =>
      have hrenamed : w <:+: ("name:".toList ++ [' ']) ++ (chartName ++ '-' :: s) := by
        rw [List.append_assoc] at hocc
        exact hw.infix_of_isWhite_append (isWhite_of_isIndentation hstart) hocc
      have hkey : ¬ w <:+: "name:".toList := fun h =>
        not_infix_of_mark hmark hchart (List.infix_append_of_infix_left h)
      have hname : ¬ w <:+: chartName := fun h =>
        not_infix_of_mark hmark hchart (List.infix_append_of_infix_right h)
      have hnew := (infix_concat_append (hw.not_mem_of_isWhiteSpace rfl) hrenamed).resolve_left
        hkey
      have htail : w <:+: '-' :: s :=
        infix_of_infix_closed_append (by decide) hw.no_close hname hnew
      rcases hdash with hlast | rfl
      · obtain ⟨front, rfl⟩ := List.getLast?_eq_some_iff.1 hlast
        refine htail.trans ⟨start ++ "name:".toList ++ pad ++ front, tail, ?_⟩
        simp only [List.append_assoc, List.cons_append, List.nil_append]
      · exact absurd htail (not_infix_of_mark hmark hbare)

theorem infix_of_infix_fillMonitor (hsolid : ∀ c ∈ project, Unicode.isWhiteSpace c = false)
    (hw : IsLiteral w) (hmark : mark <:+: w)
    (hchart : hasInfix mark ("name:".toList ++ chartName) = false)
    (hbare : hasInfix mark ('-' :: metricsMonitorSuffix) = false)
    (hocc : w <:+: fillMonitor project resource t) : w <:+: t := by
  obtain ⟨line', hline', hocc⟩ := exists_mem_lines_of_infix hw.not_mem_newline hocc
  obtain ⟨line, hline, hrenaming⟩ := exists_mem_of_forall₂
    (forall₂_isRenaming_fillMonitor (not_mem_newline_of_solid hsolid) resource t) hline'
  exact (infix_of_infix_isRenaming hw hmark hchart hbare hrenaming hocc).trans
    (infix_of_mem_pieces hline)

/-! ## Behind the substitutions -/

/-- Whether a line holds nothing that the build tool writes: neither the namespace of a project
with a name nor the label that names the tool. -/
structure IsReleased (project : Text) (line : Line) : Prop where
  no_namespace : project ≠ [] → ¬ namespaceLiteral project <:+: line
  no_label : isManagedByBuild line = false

theorem not_infix_fillKind (h : IsPlainProject project) (hne : project ≠ [])
    (resource : Resource) (t : Text) :
    ¬ namespaceLiteral project <:+: fillKind project resource (fillNamespace project t) := by
  intro hocc
  have hw := isLiteral_namespaceLiteral h
  have hmark : "-system".toList <:+: namespaceLiteral project :=
    (List.suffix_append project _).isInfix
  apply not_infix_fillNamespace h hne
  unfold fillKind at hocc
  split at hocc
  · exact infix_of_infix_fillCertificate h hw hmark (by decide) (by decide) (by decide) hocc
  · split at hocc
    · exact infix_of_infix_fillIssuer h hw hmark (by decide) hocc
    · split at hocc
      · exact infix_of_infix_fillMonitor h.solid hw hmark (by decide) (by decide) hocc
      · exact hocc

theorem isReleased_fillManagedBy (h : IsPlainProject project)
    (ht : project ≠ [] → ¬ namespaceLiteral project <:+: t) :
    ∀ line ∈ lines (fillManagedBy t), IsReleased project line := by
  intro line hline
  rw [lines_fillManagedBy] at hline
  obtain ⟨source, hsource, rfl⟩ := List.mem_map.1 hline
  refine ⟨fun hne hocc => ht hne ?_, isManagedByBuild_fillManagedByLine source⟩
  have hmark : "-system".toList <:+: namespaceLiteral project :=
    (List.suffix_append project _).isInfix
  exact (infix_of_infix_fillManagedByLine (isLiteral_namespaceLiteral h) hmark (by decide)
    hocc).trans (infix_of_mem_pieces hsource)

theorem isReleased_of_isAdded (h : line.IsAdded) : IsReleased project line where
  no_namespace _ hocc := by
    have hsystem : "system".toList <:+: namespaceLiteral project :=
      ⟨project ++ ['-'], [], by rw [List.append_nil, List.append_assoc]; rfl⟩
    exact h.neutral _ List.mem_cons_self (hsystem.trans hocc)
  no_label := by
    rw [← Bool.not_eq_true, isManagedByBuild_iff]
    rintro ⟨s, gap, tail, rfl, -, -⟩
    refine h.neutral "kustomize".toList (by decide) ⟨s ++ managedByLabel ++ gap, tail, ?_⟩
    simp only [List.append_assoc]

end Naming

namespace Templater

open Naming

variable {project t out : Text} {resource : Resource}

theorem isReleased_of_mem_apply (h : IsPlainProject project)
    (happly : apply ⟨project⟩ resource t = .ok out) :
    ∀ line ∈ lines out, IsReleased project line := by
  cases hkind : resource.isKind .deployment with
  | false =>
      rw [apply_eq_settle hkind, Except.ok.injEq, Wrap.settle] at happly
      rw [← happly, lines_overLines (BlankRuns.areLines_collapse (areLines_lines _))]
      intro line hline
      exact isReleased_fillManagedBy h (fun hne => not_infix_fillKind h hne resource _) line
        (BlankRuns.mem_of_mem_collapseFrom hline)
  | true =>
      obtain ⟨ls, hls, rfl⟩ := (apply_deployment_eq_ok_iff hkind).1 happly
      have hlines := Deployment.areLines_guardCertificates
        (Deployment.areLines_fillValues hls (areLines_lines _))
      rw [lines_ofLines (BlankRuns.areLines_collapse hlines)]
      intro line hline
      have hedits := (Deployment.reworks_fillValues hls).trans
        (Deployment.reworks_guardCertificates ls)
      rcases hedits.added line (BlankRuns.mem_of_mem_collapseFrom hline) with hold | hadded
      · exact isReleased_fillManagedBy h (not_infix_fillNamespace h) line hold
      · exact isReleased_of_isAdded hadded

/-- Neither the project's namespace nor the label that names the build tool survives
templating. -/
theorem no_build_names (h : IsPlainProject project) (hne : project ≠ [])
    (happly : apply ⟨project⟩ resource t = .ok out) :
    ¬ project ++ "-system".toList <:+: out ∧ ∀ line ∈ lines out, ¬ IsBuildLabel line := by
  have hlines := isReleased_of_mem_apply h happly
  constructor
  · intro hocc
    obtain ⟨line, hline, hocc⟩ :=
      exists_mem_lines_of_infix (isLiteral_namespaceLiteral h).not_mem_newline hocc
    exact (hlines line hline).no_namespace hne hocc
  · intro line hline
    rw [← isManagedByBuild_iff, (hlines line hline).no_label]
    exact Bool.false_ne_true

/-- A manifest with both. -/
theorem no_build_names_service : ∃ out,
    apply ⟨"demo".toList⟩ ⟨"Service".toList, "v1".toList, "x".toList, []⟩
        "  namespace: demo-system\n    app.kubernetes.io/managed-by: kustomize\n".toList =
      .ok out ∧ ¬ "demo-system".toList <:+: out ∧ ∀ line ∈ lines out, ¬ IsBuildLabel line := by
  have hplain : IsPlainProject "demo".toList := ⟨by decide, by decide, by decide⟩
  have hout : apply ⟨"demo".toList⟩ ⟨"Service".toList, "v1".toList, "x".toList, []⟩
        "  namespace: demo-system\n    app.kubernetes.io/managed-by: kustomize\n".toList =
      .ok (ofLines ["  namespace: \x7b\x7b .Release.Namespace \x7d\x7d".toList,
        "    app.kubernetes.io/managed-by: \x7b\x7b .Release.Service \x7d\x7d".toList, []]) := rfl
  exact ⟨_, hout, no_build_names hplain (by decide) hout⟩

end Templater

end OperatorChart
